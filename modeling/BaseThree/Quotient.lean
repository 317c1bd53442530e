/-! Quotients.

Division of integers drops the fraction, so that the quotient is never farther
from zero than the exact one: sizes are divided, and the sign is set afterwards.
Nothing is divided by zero.

`quotient_of_ne_zero`: this is the standard library's division toward zero. -/
namespace BaseThree

/-- A division by zero was asked for. -/
structure ZeroDivisor where
  deriving DecidableEq, Repr

def ZeroDivisor.message : ZeroDivisor → String := fun _ => "integer division or modulo by zero"

def divideSizes (left right : Nat) : Except ZeroDivisor Nat :=
  if right = 0 then .error {} else .ok (left / right)

/-- The quotient rounded toward zero. -/
def quotient (left right : Int) : Except ZeroDivisor Int := do
  let size ← divideSizes left.natAbs right.natAbs
  pure (if decide (left < 0) != decide (right < 0) then -(size : Int) else size)

theorem divideSizes_of_ne_zero {left right : Nat} (h : right ≠ 0) :
    divideSizes left right = .ok (left / right) := if_neg h

/-- The sign of a quotient, from the signs of its parts. -/
theorem tdiv_eq_ite (left right : Int) : left.tdiv right =
    if decide (left < 0) != decide (right < 0) then -((left.natAbs / right.natAbs : Nat) : Int)
    else ((left.natAbs / right.natAbs : Nat) : Int) := by
  have hnot (n : Nat) : ¬(n : Int) < 0 := Int.not_lt.2 (Int.natCast_nonneg n)
  cases left with
  | ofNat m =>
    cases right with
    | ofNat n => simp [Int.tdiv, hnot]
    | negSucc n => simp [Int.tdiv, hnot, Int.negSucc_lt_zero]
  | negSucc m =>
    cases right with
    | ofNat n => simp [Int.tdiv, hnot, Int.negSucc_lt_zero]
    | negSucc n => simp [Int.tdiv, Int.negSucc_lt_zero]

theorem quotient_of_ne_zero {left right : Int} (h : right ≠ 0) :
    quotient left right = .ok (left.tdiv right) := by
  have hsize : divideSizes left.natAbs right.natAbs = .ok (left.natAbs / right.natAbs) :=
    divideSizes_of_ne_zero (Int.natAbs_ne_zero.2 h)
  unfold quotient
  rw [hsize, tdiv_eq_ite]
  rfl

end BaseThree
