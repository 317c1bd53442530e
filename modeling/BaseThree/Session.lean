import BaseThree.Evaluation
import BaseThree.Scanner.Command

/-! Sessions.

A session drives one evaluation step by step: each request runs a rule from where
the scanner stands, or is a command for the scanner. The state goes on from one
request to the next, whether it succeeded or not. -/
namespace BaseThree

open Evaluation

namespace Session

inductive Request
  | rule (r : Rule)
  | scan (c : Scanner.Command)
  deriving DecidableEq, Repr

inductive Answer
  | value (value : Int)
  | scan (answer : Scanner.Answer)
  deriving DecidableEq, Repr

abbrev Reply := Except Failure Answer

def step (settings : Settings) (s : State) : Request → Reply × State
  | .rule r =>
    let (result, t) := outcome (rule settings r) s
    (result.map .value, t)
  | .scan c =>
    let (reply, t) := s.scanner.perform c
    match reply with
    | .ok answer => (.ok (.scan answer), {s with scanner := t})
    | .error e => (.error (.endOfText e), {s with scanner := t})

/-- Each reply with the state after it. -/
def run (settings : Settings) (s : State) : List Request → List (Reply × State)
  | [] => []
  | request :: rest =>
    let (reply, t) := step settings s request
    (reply, t) :: run settings t rest

/-- The state after all requests. -/
def final (settings : Settings) (s : State) : List Request → State
  | [] => s
  | request :: rest => final settings (step settings s request).2 rest

end Session

end BaseThree
