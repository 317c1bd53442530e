import BaseThree.Proofs.Character
import BaseThree.Token

/-! Texts as tokens.

`Splits k w ts`: the characters `w`, the first of them at offset `k`, are blanks and the
tokens `ts`, and no run of digits could be longer. A proof about the tokens of a text
follows its constructors (`splits_listFrom`). -/
namespace BaseThree.Token

inductive Splits : Nat → List Char → List Token → Prop
  | done {k : Nat} : Splits k [] []
  | blank {k : Nat} {c : Char} {w : List Char} {ts : List Token} (blank : Text.isBlank c = true)
    (rest : Splits (k + 1) w ts) : Splits k (c :: w) ts
  | mark {k : Nat} {c : Char} {w : List Char} {ts : List Token} (not_blank : Text.isBlank c = false)
    (not_digit : c.isDigit = false) (rest : Splits (k + 1) w ts) :
    Splits k (c :: w) (⟨k, [c]⟩ :: ts)
  | digits {k : Nat} {ds w : List Char} {ts : List Token} (some_digit : ds ≠ [])
    (digit : ∀ c ∈ ds, c.isDigit = true) (longest : ∀ c, w.head? = some c → c.isDigit = false)
    (rest : Splits (k + ds.length) w ts) : Splits k (ds ++ w) (⟨k, ds⟩ :: ts)

theorem not_blank_of_isDigit {c : Char} (h : c.isDigit = true) : Text.isBlank c = false := by
  rcases isDigit_iff.1 h with ⟨d, hd⟩ | hf
  · exact Digit.not_blank_of_ofChar? hd
  · exact not_blank_of_foreign hf

theorem listFrom_blank {k : Nat} {c : Char} {w : List Char} (h : Text.isBlank c = true) :
    listFrom k (c :: w) = listFrom (k + 1) w := if_pos h

theorem listFrom_mark {k : Nat} {c : Char} {w : List Char} (hb : Text.isBlank c = false)
    (hd : c.isDigit = false) : listFrom k (c :: w) = ⟨k, [c]⟩ :: listFrom (k + 1) w := by
  rw [listFrom, if_neg (Bool.eq_false_iff.1 hb), if_neg (Bool.eq_false_iff.1 hd)]

theorem listFrom_digit {k : Nat} {c : Char} {w : List Char} (h : c.isDigit = true) :
    listFrom k (c :: w) = consDigit k c (listFrom (k + 1) w) := by
  rw [listFrom, if_neg (Bool.eq_false_iff.1 (not_blank_of_isDigit h)), if_pos h]

theorem offset_consDigit (k : Nat) (c : Char) (ts : List Token) :
    ∃ t rest, consDigit k c ts = t :: rest ∧ t.offset = k := by
  unfold consDigit
  split
  · exact ⟨_, _, rfl, rfl⟩
  · split
    · exact ⟨_, _, rfl, rfl⟩
    · exact ⟨_, _, rfl, rfl⟩

theorem offset_listFrom {k : Nat} {w : List Char} {t : Token} {ts : List Token}
    (h : listFrom k w = t :: ts) : k ≤ t.offset := by
  induction w generalizing k with
  | nil => cases h
  | cons c w ih =>
    by_cases hb : Text.isBlank c = true
    · rw [listFrom_blank hb] at h
      exact Nat.le_of_succ_le (ih h)
    · rw [Bool.not_eq_true] at hb
      by_cases hd : c.isDigit = true
      · obtain ⟨u, rest, hu, hoffset⟩ := offset_consDigit k c (listFrom (k + 1) w)
        rw [listFrom_digit hd, hu] at h
        cases h
        exact Nat.le_of_eq hoffset.symm
      · rw [listFrom_mark hb (Bool.eq_false_iff.2 hd)] at h
        cases h
        exact Nat.le_refl _

/-- A digit begins a token of its own where no other follows. -/
theorem consDigit_alone {k : Nat} {c : Char} {w : List Char}
    (hw : ∀ d, w.head? = some d → d.isDigit = false) :
    consDigit k c (listFrom (k + 1) w) = ⟨k, [c]⟩ :: listFrom (k + 1) w := by
  cases w with
  | nil => rfl
  | cons d w =>
    have hd := hw d rfl
    have hapart {t : Token} {ts : List Token} (ht : ¬(t.offset = k + 1 ∧ t.isDigits = true)) :
        consDigit k c (t :: ts) = ⟨k, [c]⟩ :: t :: ts := if_neg ht
    by_cases hb : Text.isBlank d = true
    · rw [listFrom_blank hb]
      cases hts : listFrom (k + 1 + 1) w with
      | nil => rfl
      | cons t ts =>
        have hle := offset_listFrom hts
        exact hapart fun h => by omega
    · rw [listFrom_mark (Bool.eq_false_iff.2 hb) hd]
      refine hapart fun h => ?_
      have hdigit : d.isDigit = true := by simpa [isDigits] using h.2
      rw [hd] at hdigit
      cases hdigit

theorem listFrom_digits {k : Nat} {ds w : List Char} (hne : ds ≠ [])
    (hds : ∀ c ∈ ds, c.isDigit = true) (hw : ∀ c, w.head? = some c → c.isDigit = false) :
    listFrom k (ds ++ w) = ⟨k, ds⟩ :: listFrom (k + ds.length) w := by
  induction ds generalizing k with
  | nil => exact absurd rfl hne
  | cons c ds ih =>
    have hc := hds c (List.mem_cons_self ..)
    have hrest : ∀ d ∈ ds, d.isDigit = true := fun d hd => hds d (List.mem_cons_of_mem _ hd)
    rw [List.cons_append, listFrom_digit hc]
    by_cases hnil : ds = []
    · subst hnil
      exact consDigit_alone hw
    · rw [ih hnil hrest, List.length_cons, Nat.add_comm ds.length 1, ← Nat.add_assoc]
      have hall : ds.all Char.isDigit = true := List.all_eq_true.2 hrest
      exact if_pos ⟨rfl, hall⟩

/-- A digit begins a run of digits, as long as there can be one. -/
theorem exists_digits {c : Char} (hc : c.isDigit = true) (rest : List Char) :
    ∃ ds w, c :: rest = ds ++ w ∧ ds ≠ [] ∧ (∀ d ∈ ds, d.isDigit = true) ∧
      (∀ d, w.head? = some d → d.isDigit = false) ∧ w.length ≤ rest.length := by
  refine ⟨_, _, (List.takeWhile_append_dropWhile (p := Char.isDigit)).symm, ?_,
    List.all_eq_true.1 List.all_takeWhile, fun d hd => ?_, ?_⟩
  · simp [hc]
  · have hnot := List.head?_dropWhile_not Char.isDigit (c :: rest)
    rw [hd] at hnot
    simpa using hnot
  · rw [List.dropWhile_cons_of_pos hc]
    exact (List.dropWhile_suffix _).length_le

theorem splits_listFrom (k : Nat) (w : List Char) : Splits k w (listFrom k w) := by
  -- A run of digits is taken at once, so the induction is on the length of the text.
  induction hn : w.length using Nat.strongRecOn generalizing k w with
  | ind n ih =>
    cases w with
    | nil => exact .done
    | cons c rest =>
      rw [List.length_cons] at hn
      cases hb : Text.isBlank c with
      | true =>
        rw [listFrom_blank hb]
        exact .blank hb (ih _ (by omega) _ rest rfl)
      | false =>
        cases hd : c.isDigit with
        | false =>
          rw [listFrom_mark hb hd]
          exact .mark hb hd (ih _ (by omega) _ rest rfl)
        | true =>
          obtain ⟨ds, w, hw, hne, hds, hstop, hle⟩ := exists_digits hd rest
          rw [hw, listFrom_digits hne hds hstop]
          exact .digits hne hds hstop (ih _ (by omega) _ w rfl)

/-- A text without tokens is blank. -/
theorem Splits.eq_nil_iff {k : Nat} {w : List Char} {ts : List Token} (h : Splits k w ts) :
    ts = [] ↔ ∀ c ∈ w, Text.isBlank c = true := by
  induction h with
  | done => simp
  | blank hb _ ih => simp [ih, hb]
  | mark hb => simp [hb]
  | @digits k ds w ts hne hds =>
    obtain ⟨c, ds, rfl⟩ := List.exists_cons_of_ne_nil hne
    simp [not_blank_of_isDigit (hds c (List.mem_cons_self ..))]

end BaseThree.Token
