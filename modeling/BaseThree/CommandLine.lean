import BaseThree.CommandLine.Request
import BaseThree.Evaluation

/-! The command line.

A run evaluates one expression, an argument or else the first line of standard
input, and shows its value as a numeral. It leaves an exit status and what it writes
to the two output streams: 0 with the numeral on the first, or 1, 3 or 4 with an
error line on the second; 2 is for errors of use. Verbose runs show the log on the
second stream, too, as far as its lines can be written. A run breaks down, with no report
at all, only over a width that is blank. -/
namespace BaseThree.CommandLine

/-- What a run leaves. -/
structure Report where
  status : Nat
  stdout : String
  stderr : String
  /-- How many lines the log lacks that could not be written. In the place of each there is a
  notice from the logging itself, which `stderr` leaves out. -/
  unwritten : Nat := 0
  deriving DecidableEq, Repr

/-- Lines as they are written to a stream. -/
def lines (texts : List String) : String := String.join (texts.map (· ++ "\n"))

/-- The lines of a log that can be written. -/
def written (log : List Evaluation.Line) : List String := log.filterMap Evaluation.Line.text?

/-- The number of those that cannot. -/
def countUnwritten (log : List Evaluation.Line) : Nat := log.countP fun line => line.text?.isNone

/-- The first line of a text, without the line feed that ends it and the carriage
returns before that. -/
def firstLine (text : String) : String :=
  String.ofList ((text.toList.takeWhile (· != '\n')).reverse.dropWhile (· == '\r')).reverse

/-- The log line with which a failed run ends. -/
def statusLine (f : Evaluation.Failure) : List Evaluation.Line :=
  match f with
  | .fault fault =>
    [.text ("Exit status " ++ toString fault.kind.exitStatus ++ " for " ++ fault.kind.name)]
  | _ => []

def errorLine (f : Evaluation.Failure) : String := "error: " ++ f.message

/-- Evaluates a text and reports on it. -/
def report (settings : Settings) (verbose : Bool) (text : String) : Report :=
  let evaluated := runText settings text
  let logged (log : List Evaluation.Line) := if verbose then log else []
  match evaluated.result with
  | .ok value =>
    let log := logged evaluated.final.log
    { status := 0
      stdout := Numeral.text value ++ "\n"
      stderr := lines (written log)
      unwritten := countUnwritten log }
  | .error failure =>
    let log := logged (evaluated.final.log ++ statusLine failure)
    { status := failure.exitStatus
      stdout := ""
      stderr := lines (written log ++ [errorLine failure])
      unwritten := countUnwritten log }

/-- A run that ends without a report. -/
inductive Breakdown
  | blankWidth
  deriving DecidableEq, Repr

def Breakdown.message : Breakdown → String
  | blankWidth => "'<' not supported between instances of 'list' and 'int'"

def Halt.report : Halt → Except Breakdown Report
  | .help => .ok { status := 0, stdout := helpText, stderr := "" }
  | .version => .ok { status := 0, stdout := versionText, stderr := "" }
  | .usage e => .ok { status := 2, stdout := "", stderr := usageText e }
  | .blankWidth => .error .blankWidth

/-- The text to evaluate. -/
def Request.text (r : Request) (stdin : String) : String := r.expression.getD (firstLine stdin)

/-- Runs the command line with its arguments and its standard input. -/
def run (arguments : List String) (stdin : String) : Except Breakdown Report :=
  match Request.ofTexts arguments with
  | .error halt => halt.report
  | .ok request => .ok (CommandLine.report request.settings request.verbose (request.text stdin))

/-- Whether a run needs a line of standard input. -/
def readsLine (arguments : List String) : Bool :=
  match Request.ofTexts arguments with
  | .error _ => false
  | .ok request => request.expression.isNone

end BaseThree.CommandLine
