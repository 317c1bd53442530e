import BaseThree.Scanner
import Mathlib.Order.Bounds.Defs

/-! Scanners as offsets.

A scanner is an offset into its text: what it has passed is the text up to the offset, what it has
not read the rest (`take_position`, `drop_position`), and what it can look at is the character
there. Passing over blanks takes it to the least offset from its own on that is the end of the text
or has no blank (`isLeast_skipBlanks`), and nowhere from there. -/
namespace BaseThree.Scanner

/-! ### Offsets -/

theorem length_text (s : Scanner) : s.text.length = s.position + s.unread.length := by
  rw [text, List.length_append, List.length_reverse]
  rfl

theorem position_le_length (s : Scanner) : s.position ≤ s.text.length := by
  rw [length_text]
  exact Nat.le_add_right _ _

theorem take_position (s : Scanner) : s.text.take s.position = s.passed.reverse :=
  List.take_left' (List.length_reverse ..)

theorem drop_position (s : Scanner) : s.text.drop s.position = s.unread :=
  List.drop_left' (List.length_reverse ..)

theorem getElem?_position (s : Scanner) : s.text[s.position]? = s.peek? := by
  rw [← List.head?_drop, drop_position]
  rfl

theorem getElem?_position_add (s : Scanner) (k : Nat) :
    s.text[s.position + k]? = s.unread[k]? := by
  rw [← List.getElem?_drop, drop_position]

/-- At the end of the text nothing is left to read. -/
theorem position_eq_length_iff (s : Scanner) : s.position = s.text.length ↔ s.unread = [] := by
  rw [length_text, ← List.length_eq_zero_iff]
  omega

theorem unread_of_peek? {s : Scanner} {c : Char} (h : s.peek? = some c) :
    ∃ rest, s.unread = c :: rest := by
  obtain ⟨passed, unread⟩ := s
  cases unread with
  | nil => cases h
  | cons d rest =>
    cases h
    exact ⟨rest, rfl⟩

theorem unread_of_peek?_none {s : Scanner} (h : s.peek? = none) : s.unread = [] :=
  List.head?_eq_none_iff.1 h

/-! ### Blanks -/

theorem skipBlanks_length_le (s : Scanner) : s.skipBlanks.unread.length ≤ s.unread.length := by
  rw [unread_skipBlanks]
  exact (List.dropWhile_suffix _).length_le

theorem peek?_skipBlanks {s : Scanner} {c : Char} (h : s.skipBlanks.peek? = some c) :
    Text.isBlank c = false := by
  rw [peek?, unread_skipBlanks] at h
  have hd := List.head?_dropWhile_not Text.isBlank s.unread
  rw [h] at hd
  simpa using hd

theorem skipBlanks_of_stops {s : Scanner} (h : ∀ c, s.peek? = some c → Text.isBlank c = false) :
    s.skipBlanks = s := by
  obtain ⟨passed, unread⟩ := s
  cases unread with
  | nil => rfl
  | cons c rest => exact if_neg (Bool.eq_false_iff.1 (h c rfl))

theorem skipBlanks_skipBlanks (s : Scanner) : s.skipBlanks.skipBlanks = s.skipBlanks :=
  skipBlanks_of_stops fun _ hc => peek?_skipBlanks hc

theorem position_le_skipBlanks (s : Scanner) : s.position ≤ s.skipBlanks.position := by
  simp [position]

/-- What is passed over is blank. -/
theorem slice_skipBlanks (s : Scanner) :
    (s.text.take s.skipBlanks.position).drop s.position = s.unread.takeWhile Text.isBlank := by
  rw [← s.text_skipBlanks, take_position]
  simp [position]

/-- The offset is that of the end of the text or of a character that is not blank. -/
def StopsAt (text : List Char) (k : Nat) : Prop :=
  k = text.length ∨ ∃ c, text[k]? = some c ∧ Text.isBlank c = false

theorem stopsAt_skipBlanks (s : Scanner) : StopsAt s.text s.skipBlanks.position := by
  rw [← s.text_skipBlanks]
  cases hc : s.skipBlanks.peek? with
  | none => exact .inl ((position_eq_length_iff _).2 (unread_of_peek?_none hc))
  | some c => exact .inr ⟨c, (getElem?_position _).trans hc, peek?_skipBlanks hc⟩

theorem not_stopsAt_of_lt {s : Scanner} {k : Nat} (hle : s.position ≤ k)
    (hlt : k < s.skipBlanks.position) : ¬StopsAt s.text k := by
  have hlength := s.skipBlanks.position_le_length
  rw [text_skipBlanks] at hlength
  have hk : k < s.text.length := Nat.lt_of_lt_of_le hlt hlength
  have hmem : s.text[k] ∈ (s.text.take s.skipBlanks.position).drop s.position :=
    List.mem_drop_iff_getElem.2 ⟨k - s.position, by simp; omega, by simp [Nat.add_sub_of_le hle]⟩
  have hblank : Text.isBlank s.text[k] = true := by
    rw [slice_skipBlanks] at hmem
    exact List.all_eq_true.1 List.all_takeWhile _ hmem
  rintro (rfl | ⟨c, hc, hcblank⟩)
  · exact absurd hk (Nat.lt_irrefl _)
  · rw [List.getElem?_eq_getElem hk, Option.some.injEq] at hc
    rw [← hc, hblank] at hcblank
    cases hcblank

theorem isLeast_skipBlanks (s : Scanner) :
    IsLeast {k | s.position ≤ k ∧ StopsAt s.text k} s.skipBlanks.position := by
  refine ⟨⟨s.position_le_skipBlanks, s.stopsAt_skipBlanks⟩, fun k hk => ?_⟩
  exact Nat.le_of_not_lt fun hlt => not_stopsAt_of_lt hk.1 hlt hk.2

end BaseThree.Scanner
