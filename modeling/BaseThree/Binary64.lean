/-! Double-precision numbers.

A finite number is its sign and `mantissa * 2 ^ exponent`. Its mantissa is below
`2 ^ 53`, and at least `2 ^ 52` unless the exponent is the least there is. A decimal
fraction stands for the number nearest to it (`ofDecimal`); of two that are equally
near, for the one with the even mantissa. What is too large is infinite. -/
namespace BaseThree

inductive Binary64
  | finite (negative : Bool) (mantissa : Nat) (exponent : Int)
  | infinite (negative : Bool)
  | nan
  deriving DecidableEq, Repr, Inhabited

namespace Binary64

def leastExponent : Int := -1074

def greatestExponent : Int := 971

/-- The number of decimal digits before the point. -/
def digitCount (n : Nat) : Nat := (toString n).length

/-- The natural number nearest to a quotient, a half going to the even one. -/
def roundDiv (num den : Nat) : Nat :=
  let rest := 2 * (num % den)
  if rest < den ∨ (rest = den ∧ num / den % 2 = 0) then num / den else num / den + 1

/-- Whether `num / den` is below `2 ^ power`. -/
def isBelowPower (num den : Nat) (power : Int) : Bool :=
  num <<< (-power).toNat < den <<< power.toNat

/-- The greatest power of two that a positive quotient reaches. -/
def binaryOrder (num den : Nat) : Int :=
  let guess : Int := num.log2 - den.log2
  if isBelowPower num den guess then guess - 1 else guess

/-- The number nearest to a positive quotient. -/
def ofQuotient (negative : Bool) (num den : Nat) : Binary64 :=
  let exponent := max (binaryOrder num den - 52) leastExponent
  let mantissa := roundDiv (num <<< (-exponent).toNat) (den <<< exponent.toNat)
  let carried := mantissa == 1 <<< 53
  let exponent := if carried then exponent + 1 else exponent
  if greatestExponent < exponent then .infinite negative
  else .finite negative (if carried then 1 <<< 52 else mantissa) exponent

/-- The number nearest to `coefficient * 10 ^ power`. From `10 ^ 310` on all are
infinite and below `10 ^ -330` all are zero, which spares the large powers. -/
def ofDecimal (negative : Bool) (coefficient : Nat) (power : Int) : Binary64 :=
  let point := digitCount coefficient + power
  if coefficient = 0 ∨ point < -330 then .finite negative 0 leastExponent
  else if 310 < point then .infinite negative
  else ofQuotient negative (coefficient * Nat.pow 10 power.toNat) (Nat.pow 10 (-power).toNat)

end Binary64

end BaseThree
