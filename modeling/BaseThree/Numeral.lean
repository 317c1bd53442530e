/-! Numerals in base three.

A digit is a number below three. `ofDigits` is the value of a list of digits, most
significant first, and `digits` the shortest such list for the size of an integer;
zero has the one digit 0. The text of an integer is its digits, after a minus sign
if it is negative. -/
namespace BaseThree

abbrev Digit := Fin 3

namespace Digit

def toChar : Digit → Char
  | 0 => '0'
  | 1 => '1'
  | 2 => '2'

def ofChar? : Char → Option Digit
  | '0' => some 0
  | '1' => some 1
  | '2' => some 2
  | _ => none

theorem ofChar?_toChar (d : Digit) : ofChar? d.toChar = some d := by
  match d with
  | 0 => rfl
  | 1 => rfl
  | 2 => rfl

theorem toChar_of_ofChar? {c : Char} {d : Digit} (h : ofChar? c = some d) : d.toChar = c := by
  unfold ofChar? at h
  split at h <;> simp_all <;> subst h <;> rfl

end Digit

/-- The digits '3' to '9', which no numeral here contains. -/
def isForeignDigit (c : Char) : Bool := '3' ≤ c && c ≤ '9'

namespace Numeral

def base : Nat := 3

/-- The characters of the digits, in the order of their values. -/
def digitChars : String := String.ofList ([0, 1, 2].map Digit.toChar)

def ofDigits (digits : List Digit) : Nat := digits.foldl (fun (value : Nat) (d : Digit) => base * value + d) 0

/-- The digits of `n`, none for zero, in front of `later`. -/
def digitsBefore (n : Nat) (later : List Digit) : List Digit :=
  if h : n = 0 then later
  else digitsBefore (n / base) (⟨n % base, Nat.mod_lt n (by decide)⟩ :: later)
termination_by n
decreasing_by exact Nat.div_lt_self (Nat.pos_of_ne_zero h) (by decide)

def digits (value : Int) : List Digit :=
  if value = 0 then [0] else digitsBefore value.natAbs []

def text (value : Int) : String :=
  let size := (digits value).map Digit.toChar
  String.ofList (if value < 0 then '-' :: size else size)

end Numeral

end BaseThree
