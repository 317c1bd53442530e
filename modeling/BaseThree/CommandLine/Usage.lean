import BaseThree.Settings

/-! Flags of the command line and what it says about its own use.

A flag has one or more spellings; the order of `Flag.spellings` is the order in which
candidates for an abbreviation are listed. A usage error ends the run with status 2,
the usage line and one line that names the error. -/
namespace BaseThree.CommandLine

inductive Flag
  | help
  | maxBits
  | verbose
  | version
  deriving DecidableEq, Repr

namespace Flag

def spellings : List (String × Flag) :=
  [("-h", help), ("--help", help), ("--max-bits", maxBits), ("--verbose", verbose), ("-v", verbose),
   ("--version", version)]

/-- The flag with exactly this spelling. -/
def spelled? (text : String) : Option Flag := spellings.lookup text

/-- The flag as an error names it: all its spellings. -/
def title : Flag → String
  | help => "-h/--help"
  | maxBits => "--max-bits"
  | verbose => "--verbose/-v"
  | version => "--version"

/-- Whether a value belongs to the flag. -/
def takesValue : Flag → Bool
  | maxBits => true
  | _ => false

end Flag

inductive UsageError
  /-- An abbreviation of several flags. -/
  | ambiguous (written : String) (candidates : List String)
  /-- A value for a flag that takes none. -/
  | ignoredValue (flag : Flag) (value : String)
  | missingValue (flag : Flag)
  | invalidInteger (flag : Flag) (value : String)
  /-- Arguments for which there is no use. -/
  | unrecognized (arguments : List String)
  | settings (rejection : Settings.Rejection)

namespace UsageError

/-- An error about the value of one flag. -/
def about (flag : Flag) (text : String) : String := "argument " ++ flag.title ++ ": " ++ text

def message : UsageError → String
  | ambiguous written candidates =>
    "ambiguous option: " ++ written ++ " could match " ++ ", ".intercalate candidates
  | ignoredValue flag value => about flag ("ignored explicit argument " ++ Text.quote value)
  | missingValue flag => about flag "expected one argument"
  | invalidInteger flag value => about flag ("invalid int value: " ++ Text.quote value)
  | unrecognized arguments => "unrecognized arguments: " ++ " ".intercalate arguments
  | settings rejection => rejection.message

end UsageError

/-! ### Texts -/

def programName : String := "ternary-calc"

def programVersion : String := "0.1.0"

def usageLine : String :=
  "usage: " ++ programName ++ " [-h] [--max-bits N] [--verbose] [--version] [expression]\n"

def versionText : String := programName ++ " " ++ programVersion ++ "\n"

def helpText : String :=
  usageLine ++
  "\n" ++
  "Evaluate a base-3 arithmetic expression (digits 0-2, + - * /, parentheses).\n" ++
  "\n" ++
  "positional arguments:\n" ++
  "  expression     Expression to evaluate. Read one line from stdin if omitted.\n" ++
  "\n" ++
  "options:\n" ++
  "  -h, --help     show this help message and exit\n" ++
  "  --max-bits N   Report overflow outside a signed N-bit range (N >= 32)\n" ++
  "  --verbose, -v  Enable debug logging\n" ++
  "  --version      show program's version number and exit\n"

def usageText (e : UsageError) : String :=
  usageLine ++ programName ++ ": error: " ++ e.message ++ "\n"

end BaseThree.CommandLine
