import BaseThree.Text.Printable

/-! Quoted text.

A quoted text is on one line and holds printable characters only. It stands
between single quotes, or between double quotes when it holds a single quote and
no double quote. Inside, the delimiter and the backslash follow a backslash; tab,
line feed and carriage return are `\t`, `\n`, `\r`; any other unprintable
character is its code point in lower-case hexadecimal, as `\xhh`, `\uhhhh` or
`\Uhhhhhhhh`, whichever is the first that fits. -/
namespace BaseThree.Text.Quoted

/-- The delimiter a text is quoted with. -/
def delimiter (text : List Char) : Char :=
  if text.contains '\x27' && !text.contains '\x22' then '\x22' else '\x27'

/-- The lower-case hexadecimal digit of a number below sixteen. -/
def hexDigit (n : Nat) : Char :=
  if n < 10 then Char.ofNat (0x30 + n) else Char.ofNat (0x61 + (n - 10))

/-- The last `width` hexadecimal digits of `n`, most significant first. -/
def hex : Nat → Nat → List Char
  | 0, _ => []
  | width + 1, n => hex width (n / 16) ++ [hexDigit (n % 16)]

/-- The numeric escape of a code point. -/
def escapeCode (n : Nat) : List Char :=
  if n < 0x100 then '\\' :: 'x' :: hex 2 n
  else if n < 0x10000 then '\\' :: 'u' :: hex 4 n
  else '\\' :: 'U' :: hex 8 n

/-- How one character is written between delimiters `delim`. -/
def encodeChar (delim c : Char) : List Char :=
  if c = delim ∨ c = '\\' then ['\\', c]
  else if c = '\t' then ['\\', 't']
  else if c = '\n' then ['\\', 'n']
  else if c = '\r' then ['\\', 'r']
  else if isPrintable c then [c]
  else escapeCode c.toNat

def encode (text : List Char) : List Char :=
  let delim := delimiter text
  delim :: (text.flatMap (encodeChar delim) ++ [delim])

end BaseThree.Text.Quoted

namespace BaseThree.Text

/-- The quoted form of a text. -/
def quote (text : String) : String := String.ofList (Quoted.encode text.toList)

end BaseThree.Text
