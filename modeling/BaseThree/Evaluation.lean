import BaseThree.Evaluation.Rule

/-! Evaluating a text.

The whole text is one expression, blanks around it aside. Evaluating it gives a value
or a failure, and logs one line that says which. The line of a value has no text if the
value has more digits than an integer is written with. -/
namespace BaseThree.Evaluation

def isBlankText (text : List Char) : Bool := text.all Text.isBlank

/-- What follows a complete expression is reported with everything unread. -/
def trailingLine (f : Fault) (unread : List Char) : String :=
  failureLine f ++ " (unparsed " ++ Text.quote (String.ofList unread) ++ ")"

def successLine (text : List Char) (value : Int) : Line :=
  match Text.writeInteger value with
  | .ok decimal => .text ("Evaluated " ++ Text.quote (String.ofList text) ++ " -> " ++ decimal)
  | .error e => .unwritten e

/-- Requires that only blanks are left. -/
def finish (text : List Char) (value : Int) : Eval Int := do
  skipBlanks
  let place ← scanner
  match place.peek? with
  | none => do
    note (successLine text value)
    pure value
  | some c => do
    let f := faultAt .trailingContent place (some c)
    note (.text (trailingLine f place.unread))
    throw (.fault f)

/-- Evaluates the text with at most so many rules active at once. -/
def wholeWithin (settings : Settings) (calls : Nat) (text : List Char) : Eval Int := do
  if isBlankText text then fail { kind := .emptyInput }
  else do
    let value ← call settings calls .expression
    finish text value

def whole (settings : Settings) (text : List Char) : Eval Int :=
  wholeWithin settings (callsFor settings) text

/-! ### Outcomes -/

/-- The result of a run and the state it ended in. -/
def outcome {α : Type} (run : Eval α) (s : State) : Except Failure α × State :=
  match run s with
  | .ok value t => (.ok value, t)
  | .error e t => (.error e, t)

end BaseThree.Evaluation

namespace BaseThree

open Evaluation

/-- What an evaluation of a text leaves. -/
structure Evaluated where
  result : Except Failure Int
  final : State

/-- Evaluates a text from its start. -/
def runText (settings : Settings) (text : String) : Evaluated :=
  let (result, final) := outcome (whole settings text.toList) (.start text.toList)
  ⟨result, final⟩

/-- The value of an expression. -/
def evaluate (settings : Settings) (text : String) : Except Failure Int :=
  (runText settings text).result

/-- The numeral of the value of an expression. -/
def evaluateToNumeral (settings : Settings) (text : String) : Except Failure String :=
  (evaluate settings text).map Numeral.text

/-- The values that evaluating a text computes up to its end, latest first. -/
def computedValues (settings : Settings) (text : String) : List Int :=
  (outcome (whole settings text.toList) (.traced text.toList)).2.trace.getD []

/-- The lines that evaluating a text logs. -/
def evaluationLog (settings : Settings) (text : String) : List Line :=
  (runText settings text).final.log

end BaseThree
