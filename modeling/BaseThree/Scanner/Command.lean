import BaseThree.Scanner

/-! Scanner commands.

Everything that can be asked of a scanner, as data: a command has an answer, or
fails at the end of the text, and leaves a scanner. A family of scanners takes
commands for its members one at a time; the others stay as they are
(`get_step_of_ne`). -/
namespace BaseThree.Scanner

inductive Command
  | peek
  | advance
  | skipBlanks
  | atEnd
  | remaining
  | position
  | text
  | describe
  deriving DecidableEq, Repr

inductive Answer
  | nothing
  | truth (value : Bool)
  | number (value : Nat)
  | text (value : List Char)
  deriving DecidableEq, Repr

abbrev Reply := Except EndOfText Answer

/-- The reply to a command and the scanner after it. -/
def perform (s : Scanner) : Command → Reply × Scanner
  | .peek => (.ok (match s.peek? with | none => .nothing | some c => .text [c]), s)
  | .advance =>
    match s.next? with
    | none => (.error ⟨s.position⟩, s)
    | some (c, t) => (.ok (.text [c]), t)
  | .skipBlanks => (.ok .nothing, s.skipBlanks)
  | .atEnd => (.ok (.truth s.atEnd), s)
  | .remaining => (.ok (.text s.unread), s)
  | .position => (.ok (.number s.position), s)
  | .text => (.ok (.text s.text), s)
  | .describe => (.ok (.text s.describe.toList), s)

/-- No command changes the text. -/
theorem text_perform (s : Scanner) (c : Command) : (s.perform c).2.text = s.text := by
  cases c with
  | advance =>
    simp only [perform]
    split
    · rfl
    · rename_i h
      exact text_next? h
  | skipBlanks => exact text_skipBlanks s
  | _ => rfl

/-! ### Families -/

abbrev Family := List Scanner

/-- A command for one member: its reply, its position afterwards and the family
afterwards; nothing if there is no such member. -/
def Family.step (family : Family) (member : Nat) (c : Command) : Option ((Reply × Nat) × Family) :=
  family[member]?.map fun s =>
    let (reply, t) := s.perform c
    ((reply, t.position), family.set member t)

/-- Commands one after the other, up to the first for a member that is not there. -/
def Family.run (family : Family) : List (Nat × Command) → List (Reply × Nat) × Family
  | [] => ([], family)
  | (member, c) :: rest =>
    match family.step member c with
    | none => ([], family)
    | some (reply, family') =>
      let (replies, last) := Family.run family' rest
      (reply :: replies, last)

theorem Family.get_step_of_ne {family family' : Family} {member other : Nat} {c : Command}
    {reply : Reply × Nat} (h : family.step member c = some (reply, family'))
    (hne : other ≠ member) : family'[other]? = family[other]? := by
  obtain ⟨s, -, hs⟩ := Option.map_eq_some_iff.1 h
  obtain ⟨-, rfl⟩ := Prod.mk.inj hs
  exact List.getElem?_set_ne (Ne.symm hne)

end BaseThree.Scanner
