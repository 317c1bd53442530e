import BaseThree.Fault
import BaseThree.Quotient
import BaseThree.Scanner
import BaseThree.Settings
import BaseThree.Text.Integer

/-! What an evaluation works on.

The state is a scanner, the depth of open parentheses and the log; on demand it also
keeps every value computed. An evaluation that fails keeps the state it failed
in: the scanner stands where the fault was found and the open parentheses stay counted.

Only a `Failure.fault` is meant for the user. The other failures stand for what an
evaluation never does: take a character at the end, divide by zero, call more rules
than the nesting allows, go round a loop without reading. -/
namespace BaseThree.Evaluation

/-- A line of the log. -/
inductive Line
  | text (text : String)
  /-- There is no text, for an integer in it is too long to be written. -/
  | unwritten (error : Text.TooLong)
  deriving DecidableEq, Repr

def Line.text? : Line → Option String
  | text t => some t
  | unwritten _ => none

structure State where
  scanner : Scanner
  /-- The number of parentheses open. -/
  depth : Nat := 0
  /-- Lines logged, oldest first. -/
  log : List Line := []
  /-- If they are kept: the values of numerals, digit by digit, and of operators,
  latest first. -/
  trace : Option (List Int) := none
  deriving DecidableEq, Repr

/-- An evaluation that has yet to begin. -/
def State.start (text : List Char) : State := { scanner := .start text }

/-- An evaluation that has yet to begin and will keep the values it computes. -/
def State.traced (text : List Char) : State := { scanner := .start text, trace := some [] }

inductive Failure
  | fault (fault : Fault)
  | endOfText (reached : Scanner.EndOfText)
  | zeroDivisor (divisor : ZeroDivisor)
  | callDepth
  | noProgress
  deriving DecidableEq, Repr

namespace Failure

def message : Failure → String
  | fault f => f.message
  | endOfText e => e.message
  | zeroDivisor e => e.message
  | callDepth => "rules nested too deep"
  | noProgress => "no character read"

/-- The exit status of the command line. -/
def exitStatus : Failure → Nat
  | fault f => f.kind.exitStatus
  | _ => 1

end Failure

abbrev Eval := EStateM Failure State

variable {α β : Type}

/-! ### Running -/

@[simp] theorem run_pure (a : α) (s : State) : (pure a : Eval α) s = .ok a s := rfl

@[simp] theorem run_throw (e : Failure) (s : State) : (throw e : Eval α) s = .error e s := rfl

@[simp] theorem run_bind (m : Eval α) (f : α → Eval β) (s : State) :
    (m >>= f) s = match m s with
      | .ok a t => f a t
      | .error e t => .error e t := by
  show EStateM.bind m f s = _
  unfold EStateM.bind
  cases m s <;> rfl

/-! ### Moving the scanner -/

def scanner : Eval Scanner := fun s => .ok s.scanner s

def peek : Eval (Option Char) := fun s => .ok s.scanner.peek? s

def skipBlanks : Eval Unit := fun s => .ok () {s with scanner := s.scanner.skipBlanks}

/-- Takes the next character. -/
def advance : Eval Char := fun s =>
  match s.scanner.next? with
  | none => .error (.endOfText ⟨s.scanner.position⟩) s
  | some (c, t) => .ok c {s with scanner := t}

/-! ### Depth -/

def depth : Eval Nat := fun s => .ok s.depth s

def enterGroup : Eval Unit := fun s => .ok () {s with depth := s.depth + 1}

def leaveGroup : Eval Unit := fun s => .ok () {s with depth := s.depth - 1}

/-! ### Logging and failing -/

def note (line : Line) : Eval Unit := fun s => .ok () {s with log := s.log ++ [line]}

/-- The line that reports a fault. -/
def failureLine (f : Fault) : String := "Evaluation failed: " ++ f.message

/-- A fault with one offending character, or none, where a scanner stands. -/
def faultAt (kind : Fault.Kind) (place : Scanner) (character : Option Char) : Fault :=
  { kind := kind
    position := some place.position
    character := character.map String.singleton }

/-- Logs the fault and stops. -/
def fail (f : Fault) : Eval α := do
  note (.text (failureLine f))
  throw (.fault f)

theorem run_fail (f : Fault) (s : State) :
    (fail f : Eval α) s = .error (.fault f) {s with log := s.log ++ [.text (failureLine f)]} := rfl

/-! ### Values -/

/-- Lets a value in range pass; one out of range overflows at `place`. -/
def checked (settings : Settings) (value : Int) (place : Scanner) : Eval Int := fun s =>
  let s := {s with trace := s.trace.map (value :: ·)}
  if settings.inRange value then .ok value s else fail (faultAt .overflow place none) s

end BaseThree.Evaluation
