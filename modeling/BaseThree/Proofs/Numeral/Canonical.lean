import BaseThree.Proofs.Numeral
import Mathlib.Data.Set.Function

/-! Canonical numerals.

No zero stands in front of other digits in the digits of a value (`isCanonical_digits`), and digits
without one are determined by their value (`IsCanonical.eq_digits`). The texts of the values are
then the texts of such digits, zero's alone without a sign, and reading one gives back the value it
was written for (`canonical_numeral`). -/
namespace BaseThree.Numeral

/-- There are digits, and the first is no zero unless it is the only one. -/
structure IsCanonical (ds : List Digit) : Prop where
  nonempty : ds ≠ []
  lead : ds = [0] ∨ ds.head? ≠ some 0

/-- The texts of numerals: zero, or digits of which the first is no zero, signed or not. -/
inductive IsNumeral : List Char → Prop
  | zero : IsNumeral ['0']
  | unsigned {first : Char} {rest : List Char} (hfirst : first ∈ ['1', '2'])
    (hrest : ∀ c ∈ rest, c ∈ ['0', '1', '2']) : IsNumeral (first :: rest)
  | signed {first : Char} {rest : List Char} (hfirst : first ∈ ['1', '2'])
    (hrest : ∀ c ∈ rest, c ∈ ['0', '1', '2']) : IsNumeral ('-' :: first :: rest)

/-- What a text of digits stands for. -/
def magnitude (size : List Char) : Int := ofDigits (size.filterMap Digit.ofChar?)

/-- What a text of digits stands for that may begin with a minus sign. -/
def reading (t : String) : Int :=
  match t.toList with
  | '-' :: size => -magnitude size
  | size => magnitude size

/-! ### Canonical digits -/

theorem exists_digitsBefore {n : Nat} (h : n ≠ 0) (later : List Digit) :
    ∃ d ds, d ≠ 0 ∧ digitsBefore n later = d :: ds := by
  fun_induction digitsBefore n later with
  | case1 later => exact absurd rfl h
  | case2 n later hn ih =>
    by_cases hlast : n / base = 0
    · refine ⟨_, later, ?_, by rw [hlast, digitsBefore_zero]⟩
      have hmod : n % base = n := by
        have hsum := Nat.div_add_mod n base
        rw [hlast] at hsum
        omega
      intro hzero
      exact hn (hmod.symm.trans (congrArg Fin.val hzero))
    · exact ih hlast

theorem exists_digits_eq {v : Int} (hv : v ≠ 0) : ∃ d ds, d ≠ 0 ∧ digits v = d :: ds := by
  rw [digits, if_neg hv]
  exact exists_digitsBefore (Int.natAbs_ne_zero.2 hv) []

theorem isCanonical_digits (v : Int) : IsCanonical (digits v) := by
  refine ⟨digits_ne_nil v, ?_⟩
  by_cases hv : v = 0
  · exact .inl (if_pos hv)
  · obtain ⟨d, ds, hd, hds⟩ := exists_digits_eq hv
    rw [hds]
    exact .inr fun h => hd (Option.some.inj h)

theorem IsCanonical.digits_ofDigits {ds : List Digit} (h : IsCanonical ds) :
    digits (ofDigits ds) = ds := by
  rcases h.lead with rfl | hlead
  · rfl
  · cases ds with
    | nil => exact absurd rfl h.nonempty
    | cons d ds => exact Numeral.digits_ofDigits (fun hd => hlead (congrArg some hd)) ds

/-- The sign does not matter. -/
theorem digits_natAbs (v : Int) : digits v.natAbs = digits v := by
  unfold digits
  simp only [Int.natAbs_natCast, Int.natCast_eq_zero, Int.natAbs_eq_zero]

theorem digits_neg (v : Int) : digits (-v) = digits v := by
  rw [← digits_natAbs (-v), Int.natAbs_neg, digits_natAbs]

theorem IsCanonical.eq_digits {ds : List Digit} {v : Int} (h : IsCanonical ds)
    (hv : ofDigits ds = v.natAbs) : ds = digits v := by
  rw [← digits_natAbs, ← hv, h.digits_ofDigits]

/-! ### Lengths -/

theorem ofDigits_lt (ds : List Digit) : ofDigits ds < base ^ ds.length := by
  induction ds using List.reverseRecOn with
  | nil => decide
  | append_singleton ds d ih =>
    have hd := d.isLt
    rw [ofDigits_concat, List.length_append, List.length_singleton, Nat.pow_succ]
    rw [base] at ih ⊢
    omega

theorem le_ofDigits {d : Digit} (hd : d ≠ 0) (ds : List Digit) :
    base ^ ds.length ≤ ofDigits (d :: ds) := by
  rw [ofDigits_cons]
  exact Nat.le_add_right_of_le (Nat.le_mul_of_pos_left _ (Fin.pos_iff_ne_zero.2 hd))

theorem length_digits {v : Int} (hv : v ≠ 0) :
    base ^ ((digits v).length - 1) ≤ v.natAbs ∧ v.natAbs < base ^ (digits v).length := by
  obtain ⟨d, ds, hd, hds⟩ := exists_digits_eq hv
  have hvalue := ofDigits_digits v
  rw [hds] at hvalue ⊢
  rw [← hvalue]
  exact ⟨le_ofDigits hd ds, ofDigits_lt (d :: ds)⟩

/-! ### Texts -/

theorem filterMap_toChar (ds : List Digit) : (ds.map Digit.toChar).filterMap Digit.ofChar? = ds := by
  have hread : Digit.ofChar? ∘ Digit.toChar = some := funext Digit.ofChar?_toChar
  rw [List.filterMap_map, hread, List.filterMap_some]

theorem reading_of_digits {t : String} {ds : List Digit} (h : t.toList = ds.map Digit.toChar) :
    reading t = ofDigits ds := by
  unfold reading
  split
  · rename_i size hminus
    have hmem : '-' ∈ ds.map Digit.toChar := by simp [← h, hminus]
    obtain ⟨d, -, hd⟩ := List.mem_map.1 hmem
    have hchar := Digit.toChar_mem d
    simp [hd] at hchar
  · rw [h, magnitude, filterMap_toChar]

theorem reading_of_minus {t : String} {ds : List Digit}
    (h : t.toList = '-' :: ds.map Digit.toChar) : reading t = -ofDigits ds := by
  simp only [reading, h, magnitude, filterMap_toChar]

theorem reading_text (v : Int) : reading (text v) = v := by
  by_cases hv : v < 0
  · rw [reading_of_minus (toList_text_of_neg hv), ofDigits_digits]
    omega
  · rw [reading_of_digits (toList_text_of_nonneg (by omega)), ofDigits_digits]
    omega

/-- What begins with no zero is a text of digits that begin with no zero. -/
theorem exists_leading {first : Char} {rest : List Char} (hfirst : first ∈ ['1', '2'])
    (hrest : ∀ c ∈ rest, c ∈ ['0', '1', '2']) :
    ∃ d ds, d ≠ 0 ∧ first :: rest = List.map Digit.toChar (d :: ds) := by
  obtain ⟨ds, rfl⟩ := exists_digits hrest
  simp only [List.mem_cons, List.not_mem_nil, or_false] at hfirst
  rcases hfirst with rfl | rfl
  · exact ⟨1, ds, by decide, rfl⟩
  · exact ⟨2, ds, by decide, rfl⟩

theorem text_reading {t : String} (h : IsNumeral t.toList) : text (reading t) = t := by
  apply String.toList_inj.1
  generalize ht : t.toList = cs at h
  cases h with
  | zero =>
    have hzero : t.toList = List.map Digit.toChar [0] := ht
    rw [reading_of_digits hzero]
    rfl
  | unsigned hfirst hrest =>
    obtain ⟨d, ds, hd, hds⟩ := exists_leading hfirst hrest
    rw [hds] at ht ⊢
    rw [reading_of_digits ht, toList_text_of_nonneg (by omega), digits_ofDigits hd]
  | signed hfirst hrest =>
    obtain ⟨d, ds, hd, hds⟩ := exists_leading hfirst hrest
    have hpos := ofDigits_pos hd ds
    rw [hds] at ht ⊢
    rw [reading_of_minus ht, toList_text_of_neg (by omega), digits_neg, digits_ofDigits hd]

theorem isNumeral_text (v : Int) : IsNumeral (text v).toList := by
  by_cases hzero : v = 0
  · subst hzero
    exact .zero
  · obtain ⟨d, ds, hd, hds⟩ := exists_digits_eq hzero
    have hfirst : d.toChar ∈ ['1', '2'] := by
      have hchar := Digit.toChar_mem d
      simp only [List.mem_cons, toChar_ne_zero hd, false_or] at hchar ⊢
      exact hchar
    have hrest : ∀ c ∈ ds.map Digit.toChar, c ∈ ['0', '1', '2'] :=
      List.forall_mem_map.2 fun d _ => Digit.toChar_mem d
    by_cases hv : v < 0
    · rw [toList_text_of_neg hv, hds]
      exact .signed hfirst hrest
    · rw [toList_text_of_nonneg (by omega), hds]
      exact .unsigned hfirst hrest

/-- **A value has the digits that are canonical and of its size, and no others; the numerals are the
texts of the values, one for each.** -/
theorem canonical_numeral :
    (∀ v : Int,
      (∀ ds, ds = digits v ↔ IsCanonical ds ∧ ofDigits ds = v.natAbs) ∧
      (v ≠ 0 → base ^ ((digits v).length - 1) ≤ v.natAbs ∧ v.natAbs < base ^ (digits v).length) ∧
      digits (-v) = digits v) ∧
    Set.BijOn text Set.univ {t | IsNumeral t.toList} ∧
    Set.InvOn reading text Set.univ {t | IsNumeral t.toList} := by
  have hinverse : Set.InvOn reading text Set.univ {t | IsNumeral t.toList} :=
    ⟨fun v _ => reading_text v, fun t ht => text_reading ht⟩
  refine ⟨fun v => ⟨fun ds => ⟨?_, fun h => h.1.eq_digits h.2⟩, length_digits, digits_neg v⟩,
    hinverse.bijOn (fun v _ => isNumeral_text v) (fun _ _ => trivial), hinverse⟩
  rintro rfl
  exact ⟨isCanonical_digits v, ofDigits_digits v⟩

/-- Twelve below zero has three digits, and its numeral is read back. -/
theorem canonical_numeral_twelve :
    digits (-12) = [1, 1, 0] ∧ (base ^ 2 ≤ 12 ∧ 12 < base ^ 3) ∧
      reading (text (-12)) = -12 ∧ text (reading "-110") = "-110" := by
  obtain ⟨hdigits, -, hreading, htext⟩ := canonical_numeral
  obtain ⟨hcanonical, hlength, -⟩ := hdigits (-12)
  have htwelve : [1, 1, 0] = digits (-12) :=
    (hcanonical [1, 1, 0]).2 ⟨⟨by decide, .inr (by decide)⟩, by decide⟩
  have hsize := hlength (by decide)
  rw [← htwelve] at hsize
  have hchars : "-110".toList = ['-', '1', '1', '0'] := rfl
  have hnumeral : IsNumeral "-110".toList := by
    rw [hchars]
    exact .signed (by simp) (by simp)
  exact ⟨htwelve.symm, hsize, hreading trivial, htext hnumeral⟩

end BaseThree.Numeral
