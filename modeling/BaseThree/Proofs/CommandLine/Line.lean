import BaseThree.CommandLine
import Mathlib.Data.List.TakeWhile

/-! First lines.

The first line of an input goes up to the first line feed, or to the end if there is none, and it
does not keep the carriage returns at its end (`firstLine_eq_iff`). -/
namespace BaseThree.CommandLine

/-- What `input` begins with: a line, any number of carriage returns, and then a line feed or
nothing more. -/
structure IsFirstLine (input line : List Char) : Prop where
  feed_not_mem : '\n' ∉ line
  getLast?_ne : line.getLast? ≠ some '\r'
  split : ∃ (returns : Nat) (rest : List Char),
    input = line ++ List.replicate returns '\r' ++ rest ∧ rest.head?.all (· == '\n') = true

variable {input line : List Char}

/-- Without the carriage returns at its end. -/
def trimReturns (text : List Char) : List Char :=
  (text.reverse.dropWhile (· == '\r')).reverse

theorem toList_firstLine (input : String) :
    (firstLine input).toList = trimReturns (input.toList.takeWhile (· != '\n')) :=
  String.toList_ofList

theorem trimReturns_append (h : line.getLast? ≠ some '\r') (returns : Nat) :
    trimReturns (line ++ List.replicate returns '\r') = line := by
  have hline : line.reverse.dropWhile (· == '\r') = line.reverse := by
    cases hr : line.reverse with
    | nil => rfl
    | cons c rest =>
      refine List.dropWhile_cons_of_neg ?_
      rw [List.getLast?_eq_head?_reverse, hr] at h
      simpa using h
  unfold trimReturns
  rw [List.reverse_append, List.reverse_replicate, List.dropWhile_append_of_pos, hline,
    List.reverse_reverse]
  intro c hc
  rw [List.eq_of_mem_replicate hc]
  rfl

/-- Nothing but carriage returns is cut off, and all of them are. -/
theorem getLast?_trimReturns (text : List Char) : (trimReturns text).getLast? ≠ some '\r' := by
  intro h
  rw [trimReturns, List.getLast?_reverse] at h
  have hnot := List.head?_dropWhile_not (· == '\r') text.reverse
  rw [h] at hnot
  cases hnot

theorem exists_trimReturns (text : List Char) :
    ∃ returns, text = trimReturns text ++ List.replicate returns '\r' := by
  have hreturns : text.reverse.takeWhile (· == '\r') =
      List.replicate (text.reverse.takeWhile (· == '\r')).length '\r' := by
    refine List.eq_replicate_iff.2 ⟨rfl, fun c hc => ?_⟩
    exact eq_of_beq (List.mem_takeWhile_imp (p := (· == '\r')) hc)
  refine ⟨(text.reverse.takeWhile (· == '\r')).length, ?_⟩
  calc
    text = (text.reverse.takeWhile (· == '\r') ++ text.reverse.dropWhile (· == '\r')).reverse := by
        rw [List.takeWhile_append_dropWhile, List.reverse_reverse]
    _ = trimReturns text ++ (text.reverse.takeWhile (· == '\r')).reverse := List.reverse_append
    _ = trimReturns text ++
          List.replicate (text.reverse.takeWhile (· == '\r')).length '\r' := by
        rw [hreturns, List.reverse_replicate, List.length_replicate]

theorem takeWhile_ne_feed (h : '\n' ∉ line) {rest : List Char}
    (hrest : rest.head?.all (· == '\n') = true) :
    (line ++ rest).takeWhile (· != '\n') = line := by
  have hline : ∀ c ∈ line, (c != '\n') = true := fun c hc =>
    bne_iff_ne.2 fun he => h (he ▸ hc)
  have hnil : rest.takeWhile (· != '\n') = [] := by
    cases rest with
    | nil => rfl
    | cons c rest =>
      have hc : c = '\n' := eq_of_beq hrest
      rw [hc]
      rfl
  rw [List.takeWhile_append_of_pos hline, hnil, List.append_nil]

/-- **The first line of an input is what the input begins with**, and there is no other such
line. -/
theorem firstLine_eq_iff {input line : String} :
    firstLine input = line ↔ IsFirstLine input.toList line.toList := by
  rw [← String.toList_inj, toList_firstLine]
  constructor
  · intro h
    obtain ⟨returns, hreturns⟩ := exists_trimReturns (input.toList.takeWhile (· != '\n'))
    rw [h] at hreturns
    have hfeed : '\n' ∉ input.toList.takeWhile (· != '\n') := by
      intro hm
      cases List.mem_takeWhile_imp (p := (· != '\n')) hm
    refine ⟨fun hm => ?_, ?_, returns, input.toList.dropWhile (· != '\n'), ?_, ?_⟩
    · rw [hreturns] at hfeed
      exact hfeed (List.mem_append_left _ hm)
    · rw [← h]
      exact getLast?_trimReturns _
    · rw [← hreturns, List.takeWhile_append_dropWhile]
    · have hnot := List.head?_dropWhile_not (· != '\n') input.toList
      cases hd : (input.toList.dropWhile (· != '\n')).head? with
      | none => rfl
      | some c =>
        rw [hd] at hnot
        simpa using hnot
  · rintro ⟨hfeed, hlast, returns, rest, hsplit, hrest⟩
    have hmem : '\n' ∉ line.toList ++ List.replicate returns '\r' := by
      rw [List.mem_append, not_or]
      exact ⟨hfeed, fun hm => absurd (List.eq_of_mem_replicate hm) (by decide)⟩
    rw [hsplit, takeWhile_ne_feed hmem hrest, trimReturns_append hlast]

end BaseThree.CommandLine
