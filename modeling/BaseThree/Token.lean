import BaseThree.Text.Blank

/-! Tokens.

A token is a longest run of the digits '0' to '9', or any other character by itself
that is not blank; blanks only separate. Two texts that differ in their blanks have
the same tokens at different offsets. -/
namespace BaseThree

structure Token where
  offset : Nat
  text : List Char
  deriving DecidableEq, Repr

namespace Token

def isDigits (t : Token) : Bool := t.text.all Char.isDigit

/-- Puts a digit in front: it joins a run of digits that starts right after it. -/
def consDigit (k : Nat) (c : Char) : List Token → List Token
  | [] => [⟨k, [c]⟩]
  | t :: rest =>
    if t.offset = k + 1 ∧ t.isDigits = true then ⟨k, c :: t.text⟩ :: rest
    else ⟨k, [c]⟩ :: t :: rest

/-- The tokens of a text whose first character is at offset `k`. -/
def listFrom (k : Nat) : List Char → List Token
  | [] => []
  | c :: rest =>
    if Text.isBlank c then listFrom (k + 1) rest
    else if c.isDigit then consDigit k c (listFrom (k + 1) rest)
    else ⟨k, [c]⟩ :: listFrom (k + 1) rest

def list (text : List Char) : List Token := listFrom 0 text

/-- Whether an offset falls on the character `d` places into the token. -/
def At (t : Token) (d offset : Nat) : Prop := d < t.text.length ∧ offset = t.offset + d

end Token

end BaseThree
