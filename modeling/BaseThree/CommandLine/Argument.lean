import BaseThree.CommandLine.Usage
import BaseThree.Text.DecimalDigit

/-! What each argument is.

An argument is plain, a flag, or unknown. It is plain if it does not start with a
hyphen, is a lone hyphen, reads as a negative number, or holds a space and is
neither flag nor abbreviation. A flag may be abbreviated as long as one spelling
fits, may have a value attached after an equals sign, and after a single hyphen may
have anything attached. The first `--` separates: all after it is plain.

Arguments are parsed as they were before later releases changed two things: what comes
of a `--` that is attached to a flag, and of several letters after one hyphen. Both are
recognised here, and `Width.read?` and `Intake.letters` say what comes of them. -/
namespace BaseThree.CommandLine

inductive Argument
  | plain (text : String)
  /-- `short` if written with a single hyphen; `attached` is text in the same argument. -/
  | flag (flag : Flag) (short : Bool) (attached : Option (List Char))
  | unknown (text : String)
  | separator
  deriving DecidableEq, Repr

namespace Argument

/-- The parts before and after the first equals sign. -/
def splitEquals : List Char → Option (List Char × List Char)
  | [] => none
  | c :: rest =>
    if c = '=' then some ([], rest) else (splitEquals rest).map fun p => (c :: p.1, p.2)

/-- All digits, at least one. -/
def isDigits (text : List Char) : Bool := !text.isEmpty && text.all Text.isDecimalDigit

/-- Digits, or a point with digits after it and perhaps before it. -/
def isUnsigned (text : List Char) : Bool :=
  isDigits text ||
    match text.dropWhile Text.isDecimalDigit with
    | '.' :: places => isDigits places
    | _ => false

/-- A hyphen and an unsigned number; one line feed may follow. -/
def isNegativeNumber : List Char → Bool
  | '-' :: size => isUnsigned size || (size.getLast? == some '\n' && isUnsigned size.dropLast)
  | _ => false

/-- Whether a spelling has a single hyphen. -/
def isShort (spelling : String) : Bool := !(['-', '-'].isPrefixOf spelling.toList)

/-- The spellings that a text with two hyphens abbreviates. -/
def abbreviated (text : List Char) : List (String × Argument) :=
  let written := splitEquals text
  let start := (written.map Prod.fst).getD text
  let attached := written.map Prod.snd
  (Flag.spellings.filter fun s => start.isPrefixOf s.1.toList).map fun s =>
    (s.1, .flag s.2 (isShort s.1) attached)

/-- The flags that a text with one hyphen and another character starts with. -/
def lettered (first : Char) (rest : List Char) : List (String × Argument) :=
  let spelling := String.ofList ['-', first]
  match Flag.spelled? spelling with
  | some f => [(spelling, .flag f true (some rest))]
  | none => []

/-- What a text may stand for that starts with a hyphen and is no flag as it stands. -/
def candidates : List Char → List (String × Argument)
  | '-' :: '-' :: rest => abbreviated ('-' :: '-' :: rest)
  | '-' :: c :: rest => lettered c rest
  | _ => []

/-- The flag and its value if the text is a full spelling, an equals sign and a value. -/
def valued? (text : List Char) : Option Argument := do
  let (spelling, value) ← splitEquals text
  let f ← Flag.spelled? (String.ofList spelling)
  pure (.flag f (isShort (String.ofList spelling)) (some value))

/-- An argument that starts with a hyphen and has more to it. -/
def ofHyphened (text : String) : Except UsageError Argument :=
  match Flag.spelled? text with
  | some f => .ok (.flag f (isShort text) none)
  | none =>
    match valued? text.toList with
    | some a => .ok a
    | none =>
      match candidates text.toList with
      | [(_, a)] => .ok a
      | [] =>
        if isNegativeNumber text.toList || text.toList.contains ' ' then .ok (.plain text)
        else .ok (.unknown text)
      | several => .error (.ambiguous text (several.map Prod.fst))

def ofText (text : String) : Except UsageError Argument :=
  match text.toList with
  | '-' :: _ :: _ => ofHyphened text
  | _ => .ok (.plain text)

/-- All arguments of a command line; an ambiguous one before the separator fails. -/
def ofTexts : List String → Except UsageError (List Argument)
  | [] => .ok []
  | text :: rest => do
    if text = "--" then pure (.separator :: rest.map .plain)
    else
      let a ← ofText text
      let others ← ofTexts rest
      pure (a :: others)

end Argument

end BaseThree.CommandLine
