import BaseThree.Text.DecimalDigit

/-! Integers in decimal.

A user types an integer as an optional sign and a run of decimal digits of any
script, single underscores allowed between digits, with blank margins on either side.
The four information separators U+001C to U+001F are blank but no margin.

No integer is read or written with more digits than `digitLimit`, zeros in front
included. `readInteger?` is `none` on such a text and on any that has another form. -/
namespace BaseThree.Text

/-- The most digits that an integer is read or written with. -/
def digitLimit : Nat := 4300

/-! ### Reading -/

/-- Blank characters that may surround an integer. -/
def isMargin (c : Char) : Bool := isBlank c && !inRanges [(0x1c, 0x1f)] c.toNat

def trimMargins (text : List Char) : List Char :=
  ((text.dropWhile isMargin).reverse.dropWhile isMargin).reverse

/-- Reads on after a digit; `value` is what the digits before amount to. -/
def readDigits? (value : Nat) : List Char → Option Nat
  | [] => some value
  | '_' :: c :: rest => (decimalDigit? c).bind fun d => readDigits? (10 * value + d) rest
  | c :: rest => (decimalDigit? c).bind fun d => readDigits? (10 * value + d) rest

def readNatural? : List Char → Option Nat
  | [] => none
  | c :: rest => (decimalDigit? c).bind fun d => readDigits? d rest

/-- Reads a sign and digits, however many. -/
def readSigned? : List Char → Option Int
  | '-' :: digits => (readNatural? digits).map fun n => -(n : Int)
  | '+' :: digits => (readNatural? digits).map fun n => (n : Int)
  | digits => (readNatural? digits).map fun n => (n : Int)

def readInteger? (text : String) : Option Int :=
  if digitLimit < text.toList.countP isDecimalDigit then none
  else readSigned? (trimMargins text.toList)

/-! ### Writing -/

/-- An integer was to be written that has too many digits. -/
structure TooLong where
  deriving DecidableEq, Repr

def writeInteger (n : Int) : Except TooLong String :=
  if digitLimit < (Nat.toDigits 10 n.natAbs).length then .error {} else .ok (toString n)

end BaseThree.Text
