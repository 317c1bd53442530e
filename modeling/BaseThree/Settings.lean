import BaseThree.Datum

/-! Settings of an evaluation.

Values are either unbounded or confined to a signed range of a given width, and
parentheses nest at most so deep. Settings carry the proof that they are valid;
`Settings.make` checks the policy first, then the width, then the nesting, and
reports the first that fails. -/
namespace BaseThree

inductive Overflow
  /-- Integers of any size; nothing overflows. -/
  | unbounded
  /-- A value outside the signed range is an error. -/
  | error
  deriving DecidableEq, Repr

namespace Overflow

def all : List Overflow := [unbounded, error]

def name : Overflow → String
  | unbounded => "UNBOUNDED"
  | error => "ERROR"

def label : Overflow → String
  | unbounded => "unbounded"
  | error => "error"

def describe (p : Overflow) : String :=
  "<OverflowPolicy." ++ p.name ++ ": " ++ Text.quote p.label ++ ">"

end Overflow

/-- What is given as a policy: one of the policies, or a datum that is none. -/
inductive PolicyChoice
  | known (policy : Overflow)
  | other (given : Datum)

namespace Settings

def minBits : Nat := 32

def nestingLimit : Nat := 250

end Settings

structure Settings where
  overflow : Overflow := .unbounded
  /-- The width of the signed range. -/
  bits : Nat := 64
  /-- The deepest nesting of parentheses allowed. -/
  nesting : Nat := 100
  minBits_le : Settings.minBits ≤ bits := by decide
  nesting_pos : 1 ≤ nesting := by decide
  nesting_le : nesting ≤ Settings.nestingLimit := by decide
  deriving DecidableEq, Repr

namespace Settings

inductive Rejection
  | policy (given : Datum)
  | bits (given : Int)
  | nesting (given : Int)

def Rejection.message : Rejection → String
  | policy given => "overflow_policy must be an OverflowPolicy: " ++ given.written
  | bits given => "int_bits must be at least " ++ toString minBits ++ ": " ++ toString given
  | nesting given =>
    "max_nesting must be between 1 and " ++ toString nestingLimit ++ ": " ++ toString given

def make (policy : PolicyChoice) (bits nesting : Int) : Except Rejection Settings :=
  match policy with
  | .other given => .error (.policy given)
  | .known policy =>
    if hb : (minBits : Int) ≤ bits then
      if hn : 1 ≤ nesting ∧ nesting ≤ (nestingLimit : Int) then
        .ok { overflow := policy
              bits := bits.toNat
              nesting := nesting.toNat
              minBits_le := by omega
              nesting_pos := by omega
              nesting_le := by omega }
      else .error (.nesting nesting)
    else .error (.bits bits)

/-- The settings when none are given. -/
def standard : Settings := {}

/-- Values confined to a signed range of the given width, nesting as by default. -/
def bounded (bits : Int) : Except Rejection Settings :=
  make (.known .error) bits standard.nesting

/-! ### The range -/

def minValue (s : Settings) : Int := -((1 : Int) <<< (s.bits - 1))

def maxValue (s : Settings) : Int := ((1 : Int) <<< (s.bits - 1)) - 1

def inRange (s : Settings) (value : Int) : Bool :=
  match s.overflow with
  | .unbounded => true
  | .error => s.minValue ≤ value && value ≤ s.maxValue

def describe (s : Settings) : String :=
  "EvaluatorConfig(overflow_policy=" ++ s.overflow.describe ++ ", int_bits=" ++ toString s.bits ++
    ", max_nesting=" ++ toString s.nesting ++ ")"

theorem inRange_of_unbounded {s : Settings} (h : s.overflow = .unbounded) (value : Int) :
    s.inRange value = true := by
  simp [inRange, h]

theorem inRange_iff_of_error {s : Settings} (h : s.overflow = .error) {value : Int} :
    s.inRange value = true ↔ s.minValue ≤ value ∧ value ≤ s.maxValue := by
  simp [inRange, h]

theorem minValue_le_zero (s : Settings) : s.minValue ≤ 0 :=
  Int.neg_nonpos_of_nonneg (Int.natCast_nonneg (1 <<< (s.bits - 1)))

end Settings

end BaseThree
