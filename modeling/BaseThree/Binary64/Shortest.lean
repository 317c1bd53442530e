import BaseThree.Binary64

/-! The shortest decimal of a double-precision number.

The reals that round to a number form an interval that ends halfway to its two
neighbours; the ends belong to it if the mantissa is even. Among the decimals in that
interval the fewest digits win, and of those with equally many the nearest to the
number; of two equally near the one with the even last digit.

A decimal `c * 10 ^ k` and a number of quarters of the last binary place are compared
as naturals: the first counts `step` and the second `unit`. -/
namespace BaseThree.Binary64

/-- A quarter of the last binary place, on the scale that makes `step` and it whole. -/
def unit (exponent k : Int) : Nat := Nat.pow 10 (-k).toNat <<< (exponent - 2).toNat

/-- `10 ^ k` on that scale. -/
def step (exponent k : Int) : Nat := Nat.pow 10 k.toNat <<< (2 - exponent).toNat

/-- The lower end of the interval, in quarters; below a power of two the neighbour is
half as far. -/
def lowerEnd (mantissa : Nat) (exponent : Int) : Nat :=
  if mantissa = 1 <<< 52 ∧ leastExponent < exponent then 4 * mantissa - 1 else 4 * mantissa - 2

def upperEnd (mantissa : Nat) : Nat := 4 * mantissa + 2

/-- Whether `c * 10 ^ k` rounds to the number. -/
def readsBack (mantissa : Nat) (exponent k : Int) (c : Nat) : Bool :=
  let low := lowerEnd mantissa exponent * unit exponent k
  let high := upperEnd mantissa * unit exponent k
  let value := c * step exponent k
  if mantissa % 2 = 0 then low ≤ value && value ≤ high else low < value && value < high

/-- The better of the multiples of `10 ^ k` next to the number, if one reads back. -/
def candidate? (mantissa : Nat) (exponent k : Int) : Option Nat :=
  let value := 4 * mantissa * unit exponent k
  let c := value / step exponent k
  match readsBack mantissa exponent k c, readsBack mantissa exponent k (c + 1) with
  | false, false => none
  | true, false => some c
  | false, true => some (c + 1)
  | true, true =>
    match compare (2 * value) ((2 * c + 1) * step exponent k) with
    | .lt => some c
    | .gt => some (c + 1)
    | .eq => some (if c % 2 = 0 then c else c + 1)

/-- How many digits stand before the point; below one, less the zeros after it. No
positive number is so small that shifting it by 400 places leaves it below one. -/
def decimalPoint (mantissa : Nat) (exponent : Int) : Int :=
  digitCount ((mantissa * Nat.pow 10 400) <<< exponent.toNat >>> (-exponent).toNat) - 400

/-- All digits of the number, as a coefficient and a power of ten. -/
def exactDecimal (mantissa : Nat) (exponent : Int) : Nat × Int :=
  if 0 ≤ exponent then (mantissa <<< exponent.toNat, 0)
  else (mantissa * Nat.pow 5 (-exponent).toNat, exponent)

/-- The shortest decimal of a positive number, as a coefficient and a power of ten.
Seventeen digits are always enough. -/
def shortest (mantissa : Nat) (exponent : Int) : Nat × Int :=
  let point := decimalPoint mantissa exponent
  let found := (List.range 17).findSome? fun n =>
    let k := point - (n + 1 : Nat)
    (candidate? mantissa exponent k).map fun c => (c, k)
  found.getD (exactDecimal mantissa exponent)

end BaseThree.Binary64
