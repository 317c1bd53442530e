/-! Open parentheses.

`balance` is how many more parentheses a text opens than it closes. `Frame.openIn`
lists, innermost first, where the contents of the groups start that a text leaves
open, and in each where its last term starts; the whole text is the outermost. -/
namespace BaseThree

/-- Parentheses opened less parentheses closed. -/
def balance (text : List Char) : Int := text.count '(' - text.count ')'

theorem balance_append (u w : List Char) : balance (u ++ w) = balance u + balance w := by
  simp only [balance, List.count_append]
  omega

theorem balance_reverse (u : List Char) : balance u.reverse = balance u := by
  simp only [balance, List.count_reverse]

theorem balance_of_ne {c : Char} (ho : c ≠ '(') (hc : c ≠ ')') : balance [c] = 0 := by
  simp [balance, ho, hc]

/-- A group that is open, or the whole text. -/
structure Frame where
  /-- The offset at which its content starts. -/
  content : Nat
  /-- The offset after its last '+' or '-', or else where its content starts. -/
  term : Nat
  deriving DecidableEq, Repr

namespace Frame

/-- The frames after one more character, which stands at offset `k`. -/
def after (k : Nat) (c : Char) (frames : List Frame) : List Frame :=
  match c, frames with
  | '(', frames => ⟨k + 1, k + 1⟩ :: frames
  | ')', _ :: outer => outer
  | '+', f :: outer => {f with term := k + 1} :: outer
  | '-', f :: outer => {f with term := k + 1} :: outer
  | _, frames => frames

/-- Reads on at offset `k`. -/
def openFrom (k : Nat) (frames : List Frame) : List Char → List Frame
  | [] => frames
  | c :: rest => openFrom (k + 1) (after k c frames) rest

/-- What a text leaves open. -/
def openIn (text : List Char) : List Frame := openFrom 0 [⟨0, 0⟩] text

end Frame

end BaseThree
