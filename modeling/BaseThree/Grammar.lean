import BaseThree.Evaluation.Rule

/-! The grammar of expressions, apart from how they are read.

`Derives r k w t`: the characters `w`, the first of them at offset `k`, have the form
that rule `r` asks for, and `t` is the tree of that form. Blanks may stand before any
token; none stand inside a numeral. A tree knows the offsets of its numerals and
operators, so that its value (`Tree.value`), taken operands first and from left to
right, is a number or the first fault on that way. -/
namespace BaseThree

namespace Operator

/-- The result of an operator, unless it divides by zero. -/
def result? : Operator → Int → Int → Option Int
  | plus, a, b => some (a + b)
  | minus, a, b => some (a - b)
  | times, a, b => some (a * b)
  | divide, a, b => if b = 0 then none else some (a.tdiv b)

end Operator

namespace Grammar

inductive Tree
  | numeral (place : Nat) (digits : List Digit)
  | group (inner : Tree)
  | operation (op : Operator) (place : Nat) (left right : Tree)
  deriving DecidableEq, Repr

namespace Tree

/-- How many groups stand inside one another. -/
def nesting : Tree → Nat
  | numeral .. => 0
  | group inner => inner.nesting + 1
  | operation _ _ left right => max left.nesting right.nesting

/-- A value in range, or an overflow at the given offset. -/
def ranged (settings : Settings) (place : Nat) (value : Int) : Except Fault Int :=
  if settings.inRange value then .ok value
  else .error { kind := .overflow, position := some place }

def value (settings : Settings) : Tree → Except Fault Int
  | numeral place digits => ranged settings place (Numeral.ofDigits digits)
  | group inner => inner.value settings
  | operation op place left right => do
    let a ← left.value settings
    let b ← right.value settings
    match op.result? a b with
    | none => .error { kind := .divisionByZero, position := some place }
    | some v => ranged settings place v

end Tree

def IsBlank (w : List Char) : Prop := ∀ c ∈ w, Text.isBlank c = true

open Evaluation (Rule)

inductive Derives : Rule → Nat → List Char → Tree → Prop
  | number {k : Nat} {digits : List Digit} (some_digit : digits ≠ []) :
    Derives .number k (digits.map Digit.toChar) (.numeral k digits)
  | numeral {k : Nat} {b w : List Char} {t : Tree} (blank : IsBlank b)
    (number : Derives .number (k + b.length) w t) : Derives .factor k (b ++ w) t
  | group {k : Nat} {b w e : List Char} {t : Tree} (blank : IsBlank b) (blank_end : IsBlank e)
    (inner : Derives .expression (k + b.length + 1) w t) :
    Derives .factor k (b ++ '(' :: (w ++ e ++ [')'])) (.group t)
  | factor {k : Nat} {w : List Char} {t : Tree} (first : Derives .factor k w t) :
    Derives .term k w t
  | product {k : Nat} {c : Char} {b w v : List Char} {l r : Tree} {op : Operator}
    (left : Derives .term k w l) (blank : IsBlank b)
    (operator : Precedence.multiplicative.operator? c = some op)
    (right : Derives .factor (k + w.length + b.length + 1) v r) :
    Derives .term k (w ++ b ++ c :: v) (.operation op (k + w.length + b.length) l r)
  | term {k : Nat} {w : List Char} {t : Tree} (first : Derives .term k w t) :
    Derives .expression k w t
  | sum {k : Nat} {c : Char} {b w v : List Char} {l r : Tree} {op : Operator}
    (left : Derives .expression k w l) (blank : IsBlank b)
    (operator : Precedence.additive.operator? c = some op)
    (right : Derives .term (k + w.length + b.length + 1) v r) :
    Derives .expression k (w ++ b ++ c :: v) (.operation op (k + w.length + b.length) l r)

/-- A whole text: an expression and blanks after it, nested no deeper than allowed. -/
structure IsTree (settings : Settings) (text : List Char) (t : Tree) : Prop where
  derives : ∃ w b, text = w ++ b ∧ IsBlank b ∧ Derives .expression 0 w t
  nesting_le : t.nesting ≤ settings.nesting

def Grammatical (settings : Settings) (text : List Char) : Prop := ∃ t, IsTree settings text t

end Grammar

end BaseThree
