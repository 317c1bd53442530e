import BaseThree.Evaluation.Rule
import BaseThree.Text.DecimalDigit

/-! Classes of characters.

A character is a blank, a digit of a numeral, a foreign digit, an operator of one
precedence, a parenthesis or none of these; no two of these classes meet. -/
namespace BaseThree

theorem Digit.ofChar?_eq_some_iff {c : Char} :
    (∃ d, Digit.ofChar? c = some d) ↔ c ∈ ['0', '1', '2'] := by
  constructor
  · rintro ⟨d, h⟩
    rw [← Digit.toChar_of_ofChar? h]
    match d with
    | 0 => decide
    | 1 => decide
    | 2 => decide
  · intro h
    simp only [List.mem_cons, List.not_mem_nil, or_false] at h
    rcases h with rfl | rfl | rfl <;> exact ⟨_, rfl⟩

theorem Digit.toChar_mem (d : Digit) : d.toChar ∈ ['0', '1', '2'] :=
  Digit.ofChar?_eq_some_iff.1 ⟨d, d.ofChar?_toChar⟩

theorem Precedence.mem_of_operator? {p : Precedence} {c : Char} {op : Operator}
    (h : p.operator? c = some op) :
    c ∈ match p with
      | .additive => ['+', '-']
      | .multiplicative => ['*', '/'] := by
  unfold Precedence.operator? at h
  split at h <;> first | decide | cases h

theorem isForeignDigit_iff {c : Char} : isForeignDigit c = true ↔ 51 ≤ c.toNat ∧ c.toNat ≤ 57 := by
  simp only [isForeignDigit, Bool.and_eq_true, decide_eq_true_eq]
  rfl

/-- The decimal digits are those of numerals and the foreign ones. -/
theorem isDigit_iff {c : Char} :
    c.isDigit = true ↔ (∃ d, Digit.ofChar? c = some d) ∨ isForeignDigit c = true := by
  rw [Digit.ofChar?_eq_some_iff, isForeignDigit_iff]
  have hdigit : c.isDigit = true ↔ 48 ≤ c.toNat ∧ c.toNat ≤ 57 := by
    simp only [Char.isDigit, Bool.and_eq_true, decide_eq_true_eq]
    rfl
  have hne {n : Nat} {d : Char} (hd : d.toNat = n) : c = d ↔ c.toNat = n := by
    rw [← hd, Char.toNat_inj]
  simp only [List.mem_cons, List.not_mem_nil, or_false, hdigit,
    hne (show '0'.toNat = 48 from rfl), hne (show '1'.toNat = 49 from rfl),
    hne (show '2'.toNat = 50 from rfl)]
  omega

theorem isDigit_eq_false_iff {c : Char} :
    c.isDigit = false ↔ Digit.ofChar? c = none ∧ isForeignDigit c = false := by
  rw [← Bool.not_eq_true, isDigit_iff, not_or, Bool.not_eq_true, Option.eq_none_iff_forall_ne_some,
    not_exists]

/-! ### No two classes meet -/

theorem Digit.ofChar?_of_foreign {c : Char} (h : isForeignDigit c = true) :
    Digit.ofChar? c = none := by
  cases hd : Digit.ofChar? c with
  | none => rfl
  | some d =>
    have hm := Digit.ofChar?_eq_some_iff.1 ⟨d, hd⟩
    simp only [List.mem_cons, List.not_mem_nil, or_false] at hm
    rcases hm with rfl | rfl | rfl <;> exact absurd h (by decide)

theorem Digit.ofChar?_of_blank {c : Char} (h : Text.isBlank c = true) : Digit.ofChar? c = none := by
  cases hd : Digit.ofChar? c with
  | none => rfl
  | some d =>
    have hm := Digit.ofChar?_eq_some_iff.1 ⟨d, hd⟩
    simp only [List.mem_cons, List.not_mem_nil, or_false] at hm
    rcases hm with rfl | rfl | rfl <;> exact absurd h (by decide)

theorem isForeignDigit_of_blank {c : Char} (h : Text.isBlank c = true) :
    isForeignDigit c = false := by
  cases hf : isForeignDigit c with
  | false => rfl
  | true =>
    have hc := isForeignDigit_iff.1 hf
    simp only [Text.isBlank, Text.inRanges, Text.blankRanges, List.any_cons, List.any_nil,
      Bool.or_eq_true, Bool.and_eq_true, decide_eq_true_eq, Bool.false_eq_true, or_false] at h
    omega

theorem isDecimalDigit_of_blank {c : Char} (h : Text.isBlank c = true) :
    Text.isDecimalDigit c = false := by
  have hapart : ∀ r ∈ Text.blankRanges, ∀ z ∈ Text.decimalZeros, r.2 < z ∨ z + 10 ≤ r.1 := by
    decide
  obtain ⟨r, hr, hin⟩ := List.any_eq_true.1 h
  cases hd : Text.isDecimalDigit c with
  | false => rfl
  | true =>
    obtain ⟨d, hd⟩ := Option.isSome_iff_exists.1 hd
    obtain ⟨z, hz, -⟩ := Option.map_eq_some_iff.1 hd
    have hdigit := List.find?_some hz
    have hzero := hapart r hr z (List.mem_of_find?_eq_some hz)
    simp only [Bool.and_eq_true, decide_eq_true_eq] at hin hdigit
    omega

theorem Digit.not_blank_of_ofChar? {c : Char} {d : Digit} (h : Digit.ofChar? c = some d) :
    Text.isBlank c = false := by
  cases hb : Text.isBlank c with
  | false => rfl
  | true =>
    rw [Digit.ofChar?_of_blank hb] at h
    cases h

theorem not_blank_of_foreign {c : Char} (h : isForeignDigit c = true) : Text.isBlank c = false := by
  cases hb : Text.isBlank c with
  | false => rfl
  | true =>
    rw [isForeignDigit_of_blank hb] at h
    cases h

theorem Precedence.not_blank_of_operator? {p : Precedence} {c : Char} {op : Operator}
    (h : p.operator? c = some op) : Text.isBlank c = false := by
  have hm := Precedence.mem_of_operator? h
  cases p <;> simp only [List.mem_cons, List.not_mem_nil, or_false] at hm <;>
    rcases hm with rfl | rfl <;> decide

theorem Precedence.not_digit_of_operator? {p : Precedence} {c : Char} {op : Operator}
    (h : p.operator? c = some op) : Digit.ofChar? c = none ∧ isForeignDigit c = false := by
  have hm := Precedence.mem_of_operator? h
  cases p <;> simp only [List.mem_cons, List.not_mem_nil, or_false] at hm <;>
    rcases hm with rfl | rfl <;> decide

theorem Precedence.operator?_of_foreign (p : Precedence) {c : Char} (h : isForeignDigit c = true) :
    p.operator? c = none := by
  cases hop : p.operator? c with
  | none => rfl
  | some op =>
    rw [(Precedence.not_digit_of_operator? hop).2] at h
    cases h

theorem Precedence.multiplicative_of_additive {c : Char} {op : Operator}
    (h : Precedence.additive.operator? c = some op) :
    Precedence.multiplicative.operator? c = none := by
  have hm := Precedence.mem_of_operator? h
  simp only [List.mem_cons, List.not_mem_nil, or_false] at hm
  rcases hm with rfl | rfl <;> rfl

end BaseThree
