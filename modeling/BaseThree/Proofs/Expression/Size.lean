import BaseThree.Proofs.Expression.Range
import BaseThree.Proofs.Reading.Size
import BaseThree.Proofs.Settings

/-! The size of a value.

`evaluate_size`: a value is less than three to the power of the digits in its text, so the numeral
that is written of it has no more digits than the text. A range that holds all values of that size
makes no difference to the text, even if the text comes to a fault in the end: nothing that is
computed on the way is larger. -/
namespace BaseThree
open Evaluation Grammar

theorem bounded_readText (settings : Settings) (text : List Char) :
    Bounded settings extent (3 ^ digitCount text) (readText settings text) := by
  rw [← Nat.one_mul (3 ^ digitCount text)]
  exact Reading.start.bounded_run 0 text

theorem natAbs_lt_of_evaluate {settings : Settings} {text : String} {v : Int}
    (h : evaluate settings text = .ok v) : v.natAbs < 3 ^ digitCount text.toList := by
  have hbounded := bounded_readText settings text.toList
  rw [readText_of_evaluate h] at hbounded
  exact hbounded

/-- An overflow is one of a value of that size. -/
theorem exists_of_overflows {settings : Settings} {text : String}
    (h : Overflows (evaluate settings text)) :
    ∃ v, settings.inRange v = false ∧ v.natAbs < 3 ^ digitCount text.toList := by
  obtain ⟨f, hf, hk⟩ := h
  rcases fault_cases hf with ⟨-, rfl⟩ | ⟨-, hread⟩
  · cases hk
  · have hbounded := bounded_readText settings text.toList
    rw [hread] at hbounded
    exact hbounded hk

/-! ### Digits -/

/-- Every expression has a digit. -/
theorem exists_digit_of_derives {r : Rule} {k : Nat} {w : List Char} {t : Tree}
    (h : Derives r k w t) : ∃ c ∈ w, c ∈ ['0', '1', '2'] := by
  induction h with
  | @number k digits some_digit =>
    cases digits with
    | nil => exact absurd rfl some_digit
    | cons d digits => exact ⟨d.toChar, List.mem_cons_self, d.toChar_mem⟩
  | numeral blank number ih =>
    obtain ⟨c, hc, hd⟩ := ih
    exact ⟨c, List.mem_append_right _ hc, hd⟩
  | group blank blank_end inner ih =>
    obtain ⟨c, hc, hd⟩ := ih
    exact ⟨c, by simp [hc], hd⟩
  | factor first ih | term first ih => exact ih
  | product left blank operator right ihl ihr | sum left blank operator right ihl ihr =>
    obtain ⟨c, hc, hd⟩ := ihl
    exact ⟨c, by simp [hc], hd⟩

theorem digitCount_pos_of_isTree {settings : Settings} {text : List Char} {t : Tree}
    (h : IsTree settings text t) : 0 < digitCount text := by
  obtain ⟨w, b, rfl, -, hw⟩ := h.derives
  obtain ⟨c, hc, hd⟩ := exists_digit_of_derives hw
  refine List.countP_pos_iff.2 ⟨c, List.mem_append_left b hc, ?_⟩
  exact decide_eq_true hd

/-- The text of a value of that size. -/
theorem exists_digits_of_text {v : Int} {d : Nat} (hd : 0 < d) (hv : v.natAbs < 3 ^ d) :
    ∃ size : List Char, size.length ≤ d ∧ (∀ c ∈ size, c ∈ ['0', '1', '2']) ∧
      ((Numeral.text v).toList = size ∨ (Numeral.text v).toList = '-' :: size) := by
  refine ⟨(Numeral.digits v).map Digit.toChar, ?_, ?_, ?_⟩
  · rw [List.length_map]
    exact Numeral.length_digits_le hd hv
  · intro c hc
    obtain ⟨digit, -, rfl⟩ := List.mem_map.1 hc
    exact digit.toChar_mem
  · rcases Int.lt_or_le v 0 with hneg | hnonneg
    · exact .inr (Numeral.toList_text_of_neg hneg)
    · exact .inl (Numeral.toList_text_of_nonneg hnonneg)

theorem evaluateToNumeral_eq_ok {settings : Settings} {text s : String} :
    evaluateToNumeral settings text = .ok s ↔
      ∃ v, evaluate settings text = .ok v ∧ Numeral.text v = s := by
  unfold evaluateToNumeral
  cases evaluate settings text with
  | error e => simp [Except.map]
  | ok v => simp [Except.map]

/-- **Values are no larger than their texts**: less than three to the power of the digits there,
and so is all that is computed up to a fault. -/
theorem evaluate_size (settings : Settings) (text : String) :
    (∀ v, evaluate settings text = .ok v → v.natAbs < 3 ^ digitCount text.toList) ∧
    (∀ s, evaluateToNumeral settings text = .ok s ↔
      ∃ v, evaluate settings text = .ok v ∧ Numeral.text v = s) ∧
    (∀ s, evaluateToNumeral settings text = .ok s →
      ∃ size : List Char, size.length ≤ digitCount text.toList ∧
        (∀ c ∈ size, c ∈ ['0', '1', '2']) ∧ (s.toList = size ∨ s.toList = '-' :: size)) ∧
    (3 ^ digitCount text.toList ≤ 2 ^ (settings.bits - 1) →
      ¬Overflows (evaluate settings text) ∧
      evaluate settings text = evaluate settings.unbounded text) := by
  refine ⟨fun v hv => natAbs_lt_of_evaluate hv, fun s => evaluateToNumeral_eq_ok, fun s hs => ?_,
    fun hbits => ?_⟩
  · obtain ⟨v, hv, rfl⟩ := evaluateToNumeral_eq_ok.1 hs
    obtain ⟨t, ht, -⟩ := exists_tree_of_evaluate hv
    exact exists_digits_of_text (digitCount_pos_of_isTree ht) (natAbs_lt_of_evaluate hv)
  · have hnot : ¬Overflows (evaluate settings text) := by
      intro hover
      obtain ⟨v, hout, hv⟩ := exists_of_overflows hover
      rw [Settings.inRange_of_natAbs_lt (Nat.lt_of_lt_of_le hv hbits)] at hout
      cases hout
    have hnesting : settings.nesting = settings.unbounded.nesting := rfl
    have hall : (computedValues settings.unbounded text).all settings.inRange = true := by
      rw [overflows_iff rfl hnesting, Bool.not_eq_false] at hnot
      exact hnot
    exact ⟨hnot, evaluate_of_inRange rfl hnesting hall⟩

/-- Nineteen digits fit thirty-two bits whatever becomes of them; here the last factor is cut
off. -/
theorem evaluate_size_of_nineteen :
    (evaluate {} "0-22*22" = .ok (-64) ∧ (-64 : Int).natAbs < 3 ^ digitCount "0-22*22".toList ∧
      evaluateToNumeral {} "0-22*22" = .ok (Numeral.text (-64))) ∧
      3 ^ digitCount "22222*22222*22222*(2222-".toList ≤ 2 ^ (32 - 1) ∧
      evaluate {overflow := .error, bits := 32} "22222*22222*22222*(2222-" =
        evaluate {bits := 32} "22222*22222*22222*(2222-" := by
  have hvalue : evaluate {} "0-22*22" = .ok (-64) := by
    rw [evaluate_eq_readText _ rfl]
    rfl
  have hsize : 3 ^ digitCount "22222*22222*22222*(2222-".toList ≤ 2 ^ (32 - 1) := by
    decide +kernel
  obtain ⟨hbound, hnumeral, -, -⟩ := evaluate_size {} "0-22*22"
  obtain ⟨-, -, -, hsame⟩ := evaluate_size {overflow := .error, bits := 32} "22222*22222*22222*(2222-"
  exact ⟨⟨hvalue, hbound (-64) hvalue, (hnumeral _).2 ⟨-64, hvalue, rfl⟩⟩, hsize, (hsame hsize).2⟩

end BaseThree
