import BaseThree.CommandLine.Argument
import BaseThree.Text.Integer

/-! What a command line asks for.

Arguments are taken from left to right. The first plain one is the expression;
whatever has no use is kept and reported when all is read. Help and version end the
reading where they stand, and so does a flag whose value is wrong. Of several values
for one flag the last counts, and only that one has to be a valid width.

A separator is dropped wherever a value is looked for, so that the width `--` is no
number but a blank. A later width replaces it; if none does, reading comes to nothing,
for a blank cannot be compared with the least width.

`Width.read?` and `Intake.letters` follow the parsing of arguments as it was before later
releases. These keep a `--` that is attached to its flag, so that it is an invalid integer,
and in `-vvx` they find the unknown argument `-x`, where here `x` is a value that `-v` does
not take. -/
namespace BaseThree.CommandLine

/-- A reason to evaluate nothing. -/
inductive Halt
  | help
  | version
  | usage (error : UsageError)
  | blankWidth

/-- A width as it was given. -/
inductive Width
  | bits (n : Int)
  | blank
  deriving DecidableEq, Repr

def Width.read? (value : String) : Option Width :=
  if value = "--" then some .blank else (Text.readInteger? value).map .bits

structure Request where
  /-- The expression, if it is an argument. -/
  expression : Option String
  settings : Settings
  verbose : Bool

/-- What has been read so far. -/
structure Intake where
  expression : Option String := none
  maxBits : Option Width := none
  verbose : Bool := false
  /-- Arguments without a use. -/
  surplus : List String := []

namespace Intake

def keep (s : Intake) (texts : List String) : Intake := {s with surplus := s.surplus ++ texts}

/-- Obeys a flag that stands without a value. -/
def obey (s : Intake) : Flag → Except Halt Intake
  | .help => .error .help
  | .version => .error .version
  | .verbose => .ok {s with verbose := true}
  | .maxBits => .error (.usage (.missingValue .maxBits))

def obeyAll (s : Intake) : List Flag → Except Halt Intake
  | [] => .ok s
  | f :: rest => do
    let t ← s.obey f
    obeyAll t rest

/-- Obeys a flag with a value. -/
def obeyWith (s : Intake) (f : Flag) (value : String) : Except Halt Intake :=
  match Width.read? value with
  | some w => .ok {s with maxBits := some w}
  | none => .error (.usage (.invalidInteger f value))

/-- The flags that the letters after a single hyphen stand for, the first of which is
`first`. If a letter is no flag, it and all after it are a value nobody takes. -/
def letters (first : Flag) : List Char → Except UsageError (List Flag)
  | [] => .error (.ignoredValue first "")
  | c :: rest =>
    match Flag.spelled? (String.ofList ['-', c]) with
    | none => .error (.ignoredValue first (String.ofList (c :: rest)))
    | some f => if rest.isEmpty then .ok [first, f] else (letters f rest).map (first :: ·)

/-- Obeys a flag with text attached to it. -/
def obeyAttached (s : Intake) (f : Flag) (short : Bool) (text : List Char) : Except Halt Intake :=
  if f.takesValue then s.obeyWith f (String.ofList text)
  else if short then
    match letters f text with
    | .error e => .error (.usage e)
    | .ok flags => s.obeyAll flags
  else .error (.usage (.ignoredValue f (String.ofList text)))

/-- A separator is of use before the expression or right after it. -/
def take (s : Intake) : List Argument → Except Halt Intake
  | [] => .ok s
  | .plain text :: .separator :: rest =>
    if s.expression.isNone then take {s with expression := some text} rest
    else take (s.keep [text, "--"]) rest
  | .plain text :: rest =>
    if s.expression.isNone then take {s with expression := some text} rest
    else take (s.keep [text]) rest
  | .separator :: rest =>
    if s.expression.isNone then take s rest else take (s.keep ["--"]) rest
  | .unknown text :: rest => take (s.keep [text]) rest
  | .flag f short (some text) :: rest => do
    let t ← s.obeyAttached f short text
    take t rest
  | .flag f _ none :: .plain value :: rest =>
    if f.takesValue then do
      let t ← s.obeyWith f value
      take t rest
    else do
      let t ← s.obey f
      take t (.plain value :: rest)
  | .flag f _ none :: rest => do
    let t ← s.obey f
    take t rest

end Intake

namespace Request

/-- The request of arguments that have all been read. -/
def ofIntake (s : Intake) : Except Halt Request :=
  if s.surplus.isEmpty then
    match s.maxBits with
    | none => .ok ⟨s.expression, .standard, s.verbose⟩
    | some .blank => .error .blankWidth
    | some (.bits n) =>
      match Settings.bounded n with
      | .ok settings => .ok ⟨s.expression, settings, s.verbose⟩
      | .error rejection => .error (.usage (.settings rejection))
  else .error (.usage (.unrecognized s.surplus))

def ofTexts (texts : List String) : Except Halt Request :=
  match Argument.ofTexts texts with
  | .error e => .error (.usage e)
  | .ok arguments => do
    let s ← Intake.take {} arguments
    ofIntake s

end Request

end BaseThree.CommandLine
