import BaseThree.Proofs.Character
import Mathlib.Data.List.Induction
import Mathlib.Tactic.Ring

/-! Numerals and their values.

More digits behind some move those up by a power of the base (`ofDigits_append`), so a number is
the value of its digits (`ofDigits_digits`). Digits that begin with no zero are the digits of their
value, and zeros in front of them go away (`map_digits_ofDigits`). -/
namespace BaseThree.Numeral

/-! ### Values of digits -/

theorem ofDigits_concat (digits : List Digit) (d : Digit) :
    ofDigits (digits ++ [d]) = base * ofDigits digits + d.val := by
  simp only [ofDigits, List.foldl_append, List.foldl_cons, List.foldl_nil]

theorem ofDigits_append (digits more : List Digit) :
    ofDigits (digits ++ more) = ofDigits digits * base ^ more.length + ofDigits more := by
  induction more using List.reverseRecOn with
  | nil => simp [ofDigits]
  | append_singleton more d ih =>
    rw [← List.append_assoc, ofDigits_concat, ofDigits_concat, ih, List.length_append,
      List.length_singleton]
    ring

theorem ofDigits_singleton (d : Digit) : ofDigits [d] = d.val := by
  simp [ofDigits]

theorem ofDigits_cons (d : Digit) (digits : List Digit) :
    ofDigits (d :: digits) = d.val * base ^ digits.length + ofDigits digits := by
  rw [← ofDigits_singleton d]
  exact ofDigits_append [d] digits

theorem ofDigits_le_concat (digits : List Digit) (d : Digit) :
    ofDigits digits ≤ ofDigits (digits ++ [d]) := by
  rw [ofDigits_concat, base]
  omega

theorem ofDigits_le_append (digits more : List Digit) :
    ofDigits digits ≤ ofDigits (digits ++ more) := by
  rw [ofDigits_append]
  exact Nat.le_add_right_of_le (Nat.le_mul_of_pos_right _ (Nat.pow_pos (by decide)))

theorem ofDigits_zero_cons (digits : List Digit) : ofDigits (0 :: digits) = ofDigits digits := by
  rw [ofDigits_cons]
  simp

theorem ofDigits_zeros (zeros : Nat) (digits : List Digit) :
    ofDigits (List.replicate zeros 0 ++ digits) = ofDigits digits := by
  induction zeros with
  | zero => rfl
  | succ zeros ih => rw [List.replicate_succ, List.cons_append, ofDigits_zero_cons, ih]

theorem ofDigits_pos {d : Digit} (hd : d ≠ 0) (digits : List Digit) :
    0 < ofDigits (d :: digits) := by
  have hone : 0 < ofDigits [d] := by
    rw [ofDigits_singleton]
    exact Fin.pos_iff_ne_zero.2 hd
  exact Nat.lt_of_lt_of_le hone (ofDigits_le_append [d] digits)

/-! ### Digits of values -/

theorem digitsBefore_zero (later : List Digit) : digitsBefore 0 later = later := by
  unfold digitsBefore
  rfl

/-- The last digit comes first. -/
theorem digitsBefore_concat {n : Nat} {d : Digit} (h : 0 < base * n + d.val)
    (later : List Digit) : digitsBefore (base * n + d.val) later = digitsBefore n (d :: later) := by
  have hdiv : (base * n + d.val) / base = n := by
    rw [base]
    omega
  have hmod : (base * n + d.val) % base = d.val := by
    rw [base]
    omega
  rw [digitsBefore, dif_neg (by omega)]
  simp only [hdiv, hmod]

theorem ofDigits_digitsBefore (n : Nat) (later : List Digit) :
    ofDigits (digitsBefore n later) = n * base ^ later.length + ofDigits later := by
  fun_induction digitsBefore n later with
  | case1 later => simp
  | case2 n later hn ih =>
    have hdivMod : base * (n / base) + n % base = n := Nat.div_add_mod n base
    calc ofDigits (digitsBefore (n / base) _)
        = n / base * base ^ (later.length + 1) +
            (n % base * base ^ later.length + ofDigits later) := by
          rw [ih, ofDigits_cons, List.length_cons]
      _ = (base * (n / base) + n % base) * base ^ later.length + ofDigits later := by ring
      _ = n * base ^ later.length + ofDigits later := by rw [hdivMod]

theorem ofDigits_digits (v : Int) : ofDigits (digits v) = v.natAbs := by
  unfold digits
  split
  · rename_i hv
    rw [hv]
    rfl
  · rw [ofDigits_digitsBefore]
    simp [ofDigits]

theorem digits_ne_nil (v : Int) : digits v ≠ [] := by
  intro hnil
  have hvalue := ofDigits_digits v
  rw [hnil] at hvalue
  have hv : v = 0 := Int.natAbs_eq_zero.1 hvalue.symm
  rw [hv] at hnil
  cases hnil

/-- Digits that begin with no zero are the digits of their value. -/
theorem digitsBefore_ofDigits {d : Digit} (hd : d ≠ 0) (digits later : List Digit) :
    digitsBefore (ofDigits (d :: digits)) later = d :: digits ++ later := by
  -- The last digit is the first to be split off, so the induction begins at the end.
  induction digits using List.reverseRecOn generalizing later with
  | nil =>
    have hpos := ofDigits_pos hd []
    rw [ofDigits_singleton] at hpos ⊢
    have hconcat := digitsBefore_concat (n := 0) (d := d) (by omega) later
    rw [Nat.mul_zero, Nat.zero_add, digitsBefore_zero] at hconcat
    exact hconcat
  | append_singleton digits e ih =>
    have hpos := ofDigits_pos hd (digits ++ [e])
    rw [← List.cons_append, ofDigits_concat] at hpos ⊢
    rw [digitsBefore_concat hpos, ih, List.append_assoc]
    rfl

theorem digits_ofDigits {d : Digit} (hd : d ≠ 0) (ds : List Digit) :
    digits (ofDigits (d :: ds)) = d :: ds := by
  have hpos := ofDigits_pos hd ds
  rw [digits, if_neg (by omega), Int.natAbs_natCast, digitsBefore_ofDigits hd, List.append_nil]

theorem length_digitsBefore_le {n d : Nat} (h : n < base ^ d) (later : List Digit) :
    (digitsBefore n later).length ≤ d + later.length := by
  fun_induction digitsBefore n later generalizing d with
  | case1 later => exact Nat.le_add_left later.length d
  | case2 n later hn ih =>
    cases d with
    | zero => exact absurd (Nat.lt_one_iff.1 h) hn
    | succ d =>
      rw [Nat.pow_succ] at h
      have hle := ih (Nat.div_lt_of_lt_mul (Nat.mul_comm (base ^ d) base ▸ h))
      rw [List.length_cons] at hle
      omega

theorem length_digits_le {v : Int} {d : Nat} (hd : 0 < d) (h : v.natAbs < base ^ d) :
    (digits v).length ≤ d := by
  unfold digits
  split
  · exact hd
  · exact length_digitsBefore_le h []

/-! ### Texts -/

theorem toChar_ne_zero {d : Digit} (hd : d ≠ 0) : d.toChar ≠ '0' := by
  intro h
  have hread := Digit.ofChar?_toChar d
  rw [h] at hread
  cases hread
  exact hd rfl

theorem exists_digits {size : List Char} (h : ∀ c ∈ size, c ∈ ['0', '1', '2']) :
    ∃ digits : List Digit, size = digits.map Digit.toChar := by
  induction size with
  | nil => exact ⟨[], rfl⟩
  | cons c rest ih =>
    obtain ⟨digits, rfl⟩ := ih fun c hc => h c (List.mem_cons_of_mem _ hc)
    obtain ⟨d, hd⟩ := Digit.ofChar?_eq_some_iff.2 (h c List.mem_cons_self)
    exact ⟨d :: digits, by rw [List.map_cons, Digit.toChar_of_ofChar? hd]⟩

theorem toList_text_of_nonneg {v : Int} (hv : 0 ≤ v) :
    (text v).toList = (digits v).map Digit.toChar := by
  rw [text, if_neg (by omega), String.toList_ofList]

theorem toList_text_of_neg {v : Int} (hv : v < 0) :
    (text v).toList = '-' :: (digits v).map Digit.toChar := by
  rw [text, if_pos hv, String.toList_ofList]

theorem exists_head?_text (v : Int) :
    ∃ c ∈ ['-', '0', '1', '2'], (text v).toList.head? = some c := by
  by_cases hv : v < 0
  · rw [toList_text_of_neg hv]
    exact ⟨'-', by decide, rfl⟩
  · obtain ⟨d, ds, hds⟩ := List.exists_cons_of_ne_nil (digits_ne_nil v)
    rw [toList_text_of_nonneg (by omega), hds]
    exact ⟨d.toChar, List.mem_cons_of_mem _ (Digit.toChar_mem d), rfl⟩

/-- Without the zeros in front; one zero if nothing else is there. -/
def trimmed (size : List Char) : List Char :=
  match size.dropWhile (· == '0') with
  | [] => ['0']
  | c :: rest => c :: rest

theorem trimmed_zero_cons (size : List Char) : trimmed ('0' :: size) = trimmed size := rfl

theorem trimmed_of_ne {c : Char} (hc : c ≠ '0') (rest : List Char) :
    trimmed (c :: rest) = c :: rest := by
  rw [trimmed, List.dropWhile_cons_of_neg (by simpa using hc)]

/-- The numeral of a value is what is left of any digits with that value. -/
theorem map_digits_ofDigits (ds : List Digit) :
    (digits (ofDigits ds)).map Digit.toChar = trimmed (ds.map Digit.toChar) := by
  induction ds with
  | nil => rfl
  | cons d ds ih =>
    by_cases hd : d = 0
    · subst hd
      rw [ofDigits_zero_cons, ih, List.map_cons]
      exact (trimmed_zero_cons _).symm
    · rw [digits_ofDigits hd, List.map_cons, trimmed_of_ne (toChar_ne_zero hd)]

end BaseThree.Numeral
