import BaseThree.Binary64.Shortest
import BaseThree.Numeral
import BaseThree.Text.Quoted

/-! Data of no fixed kind.

What reaches the untyped entry points: a value that knows its kind and how it is
written. Only whole numbers have a numeral; any other datum is refused by the name
of its kind, truth values too. -/
namespace BaseThree

inductive Datum
  | integer (value : Int)
  | real (value : Binary64)
  | truth (value : Bool)
  | nothing
  | text (value : String)
  | list (items : List Datum)
  | record (fields : List (String × Datum))
  deriving Inhabited

namespace Datum

def kind : Datum → String
  | integer _ => "int"
  | real _ => "float"
  | truth _ => "bool"
  | nothing => "NoneType"
  | text _ => "str"
  | list _ => "list"
  | record _ => "dict"

/-! ### Written form -/

/-- A number whose digits are given, none of them a trailing zero, the point standing
after the first `point` of them. It is positional while that shows at most sixteen
digits before the point or at most three zeros after it, else it has an exponent of at
least two digits. -/
def placePoint (digits : List Char) (point : Int) : List Char :=
  if -4 < point ∧ point ≤ 0 then '0' :: '.' :: (List.replicate point.natAbs '0' ++ digits)
  else if 0 < point ∧ point ≤ 16 then
    let whole := digits.take point.toNat
    let rest := digits.drop point.toNat
    whole ++ List.replicate (point.toNat - whole.length) '0' ++ '.' :: (if rest.isEmpty then ['0'] else rest)
  else
    let exponent := point - 1
    let size := (toString exponent.natAbs).toList
    digits.take 1 ++ (if digits.length ≤ 1 then [] else '.' :: digits.drop 1) ++
      'e' :: (if exponent < 0 then '-' else '+') :: (if size.length < 2 then '0' :: size else size)

/-- The shortest decimal that stands for the number. -/
def realText : Binary64 → String
  | .nan => "nan"
  | .infinite negative => if negative then "-inf" else "inf"
  | .finite negative mantissa exponent =>
    let (coefficient, power) := Binary64.shortest mantissa exponent
    let all := (toString coefficient).toList
    let digits := (all.reverse.dropWhile (· == '0')).reverse
    let size := if mantissa = 0 then ['0', '.', '0'] else placePoint digits (all.length + power)
    String.ofList (if negative then '-' :: size else size)

mutual

/-- How a datum is written in a message. -/
def written : Datum → String
  | integer value => toString value
  | real value => realText value
  | truth true => "True"
  | truth false => "False"
  | nothing => "None"
  | text value => Text.quote value
  | list items => "[" ++ ", ".intercalate (writtenItems items) ++ "]"
  | record fields => "\x7b" ++ ", ".intercalate (writtenFields fields) ++ "\x7d"

def writtenItems : List Datum → List String
  | [] => []
  | d :: rest => d.written :: writtenItems rest

def writtenFields : List (String × Datum) → List String
  | [] => []
  | (name, d) :: rest => (Text.quote name ++ ": " ++ d.written) :: writtenFields rest

end

end Datum

/-! ### Numerals of data -/

/-- A datum of the named kind stands where an integer is needed. -/
structure NotAnInteger where
  kind : String
  deriving DecidableEq, Repr

def NotAnInteger.message (e : NotAnInteger) : String := "expected int, got " ++ e.kind

def Datum.toInteger : Datum → Except NotAnInteger Int
  | .integer value => .ok value
  | d => .error ⟨d.kind⟩

def Datum.digits (d : Datum) : Except NotAnInteger (List Digit) := d.toInteger.map Numeral.digits

def Datum.numeral (d : Datum) : Except NotAnInteger String := d.toInteger.map Numeral.text

end BaseThree
