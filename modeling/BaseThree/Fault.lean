import BaseThree.Text.Quoted

/-! Faults.

A fault is what is wrong with an expression: its kind, where it was found and the
character found there, as far as these are known. The kind decides the exit status
of the command line, which is never 0 and never 2. -/
namespace BaseThree

namespace Fault

inductive Kind
  /-- Nothing but blank characters. -/
  | emptyInput
  /-- A character where an operand has to start. -/
  | unexpectedCharacter
  /-- The end where an operand has to start. -/
  | unexpectedEnd
  /-- A decimal digit above 2 in or at the start of a numeral. -/
  | invalidDigit
  /-- A group that is not closed. -/
  | missingParenthesis
  | divisionByZero
  /-- Something follows a complete expression. -/
  | trailingContent
  /-- A value outside the range. -/
  | overflow
  /-- Parentheses beyond the limit. -/
  | nestingTooDeep
  deriving DecidableEq, Repr

namespace Kind

def all : List Kind :=
  [emptyInput, unexpectedCharacter, unexpectedEnd, invalidDigit, missingParenthesis,
   divisionByZero, trailingContent, overflow, nestingTooDeep]

def name : Kind → String
  | emptyInput => "EMPTY_INPUT"
  | unexpectedCharacter => "UNEXPECTED_CHARACTER"
  | unexpectedEnd => "UNEXPECTED_END_OF_INPUT"
  | invalidDigit => "INVALID_DIGIT"
  | missingParenthesis => "MISSING_CLOSING_PARENTHESIS"
  | divisionByZero => "DIVISION_BY_ZERO"
  | trailingContent => "TRAILING_CONTENT"
  | overflow => "OVERFLOW"
  | nestingTooDeep => "NESTING_TOO_DEEP"

def text : Kind → String
  | emptyInput => "empty input"
  | unexpectedCharacter => "unexpected character"
  | unexpectedEnd => "unexpected end of input"
  | invalidDigit => "invalid digit"
  | missingParenthesis => "missing closing parenthesis"
  | divisionByZero => "division by zero"
  | trailingContent => "trailing content"
  | overflow => "integer overflow"
  | nestingTooDeep => "nesting too deep"

/-- The exit status that reports a fault of this kind. -/
def exitStatus : Kind → Nat
  | divisionByZero => 3
  | overflow => 4
  | _ => 1

theorem mem_all (k : Kind) : k ∈ all := by cases k <;> decide

end Kind

end Fault

structure Fault where
  kind : Fault.Kind
  position : Option Int := none
  character : Option String := none
  deriving DecidableEq, Repr

namespace Fault

def characterText : Option String → String
  | none => ""
  | some c => " " ++ Text.quote c

def positionText : Option Int → String
  | none => ""
  | some p => " at position " ++ toString p

/-- The sentence shown to the user. -/
def message (f : Fault) : String :=
  f.kind.text ++ characterText f.character ++ positionText f.position

/-- All three parts, absent ones included. -/
def describe (f : Fault) : String :=
  "ParseError(" ++ f.kind.name ++
    ", position=" ++ (match f.position with | none => "None" | some p => toString p) ++
    ", character=" ++ (match f.character with | none => "None" | some c => Text.quote c) ++ ")"

end Fault

end BaseThree
