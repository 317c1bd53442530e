import BaseThree.Evaluation.State

/-! The rules of evaluation.

    expression := term (('+' | '-') term)*
    term       := factor (('*' | '/') factor)*
    factor     := '(' expression ')' | number
    number     := digit+

Each rule reads its part of the text and computes its value in one pass; the first
fault ends the run. Chains of one precedence are loops of single turns, and so are
numerals, digit by digit. A turn that asks for another has read a character, so a
loop of as many turns as there are unread characters always comes to its end.

`call` is given how many rules may be active at once; a rule calls the next with one
fewer. `callsFor` is how many the nesting limit of the settings can ever need. -/
namespace BaseThree

inductive Operator
  | plus
  | minus
  | times
  | divide
  deriving DecidableEq, Repr

/-- How tightly an operator binds. -/
inductive Precedence
  | additive
  | multiplicative
  deriving DecidableEq, Repr

/-- The operator of this precedence that a character stands for. -/
def Precedence.operator? : Precedence → Char → Option Operator
  | .additive, '+' => some .plus
  | .additive, '-' => some .minus
  | .multiplicative, '*' => some .times
  | .multiplicative, '/' => some .divide
  | _, _ => none

namespace Evaluation

inductive Rule
  | expression
  | term
  | factor
  | number
  deriving DecidableEq, Repr

/-! ### Loops -/

/-- The outcome of one turn of a loop: the last one, or one that another follows. -/
inductive Turn
  | last (value : Int)
  | next (value : Int)
  deriving DecidableEq, Repr

/-- Takes turns until the last. Each further turn spends an element of the budget. -/
def loop (turn : Int → Eval Turn) : List Char → Int → Eval Int
  | budget, value => do
    match ← turn value with
    | .last result => pure result
    | .next value =>
      match budget with
      | [] => throw .noProgress
      | _ :: budget => loop turn budget value

/-! ### Chains -/

/-- The value of an operator that stands at `place`. -/
def combine (settings : Settings) (op : Operator) (left right : Int) (place : Scanner) : Eval Int :=
  match op with
  | .plus => checked settings (left + right) place
  | .minus => checked settings (left - right) place
  | .times => checked settings (left * right) place
  | .divide =>
    if right = 0 then fail (faultAt .divisionByZero place none)
    else
      match quotient left right with
      | .error e => throw (.zeroDivisor e)
      | .ok value => checked settings value place

/-- Reads an operator of the precedence and its right operand, if one comes next. -/
def chainTurn (settings : Settings) (precedence : Precedence) (operand : Eval Int) (value : Int) :
    Eval Turn := do
  skipBlanks
  let place ← scanner
  match place.peek?.bind precedence.operator? with
  | none => pure (.last value)
  | some op => do
    let _ ← advance
    let right ← operand
    let value ← combine settings op value right place
    pure (.next value)

def chain (settings : Settings) (precedence : Precedence) (operand : Eval Int) : Eval Int := do
  let value ← operand
  let place ← scanner
  loop (chainTurn settings precedence operand) place.unread value

/-! ### Numerals -/

/-- Reads a digit of the numeral that starts at `place`, if one comes next. -/
def numeralTurn (settings : Settings) (place : Scanner) (value : Int) : Eval Turn := do
  match (← peek).bind Digit.ofChar? with
  | none => pure (.last value)
  | some d => do
    let _ ← advance
    let value ← checked settings (Numeral.base * value + d.val) place
    pure (.next value)

/-- A numeral with a digit above 2 right after it is no numeral. -/
def numeral (settings : Settings) : Eval Int := do
  let place ← scanner
  let value ← loop (numeralTurn settings place) place.unread 0
  let after ← scanner
  match after.peek? with
  | none => pure value
  | some c => if isForeignDigit c then fail (faultAt .invalidDigit after (some c)) else pure value

/-! ### Factors -/

/-- What follows an opening parenthesis, up to the closing one. -/
def closeGroup (value : Int) : Eval Int := do
  skipBlanks
  let place ← scanner
  match place.peek? with
  | some ')' => do
    let _ ← advance
    leaveGroup
    pure value
  | other => fail (faultAt .missingParenthesis place other)

def group (settings : Settings) (inner : Eval Int) (place : Scanner) : Eval Int := do
  if settings.nesting ≤ (← depth) then fail (faultAt .nestingTooDeep place (some '('))
  else do
    enterGroup
    let _ ← advance
    let value ← inner
    closeGroup value

def factor (settings : Settings) (inner number : Eval Int) : Eval Int := do
  skipBlanks
  let place ← scanner
  match place.peek? with
  | none => fail (faultAt .unexpectedEnd place none)
  | some '(' => group settings inner place
  | some c =>
    if (Digit.ofChar? c).isSome then number
    else if isForeignDigit c then fail (faultAt .invalidDigit place (some c))
    else fail (faultAt .unexpectedCharacter place (some c))

/-! ### Calls -/

/-- Runs a rule with at most so many rules active at once, itself included. -/
def call (settings : Settings) : Nat → Rule → Eval Int
  | 0, _ => throw .callDepth
  | calls + 1, .expression => chain settings .additive (call settings calls .term)
  | calls + 1, .term => chain settings .multiplicative (call settings calls .factor)
  | calls + 1, .factor =>
    factor settings (call settings calls .expression) (call settings calls .number)
  | _ + 1, .number => numeral settings

/-- Three rules for every open parenthesis and four for the innermost expression. -/
def callsFor (settings : Settings) : Nat := 3 * settings.nesting + 4

def rule (settings : Settings) (r : Rule) : Eval Int := call settings (callsFor settings) r

end Evaluation

end BaseThree
