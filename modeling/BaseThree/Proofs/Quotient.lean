import BaseThree.Quotient

/-! Quotients toward zero.

A quotient is known by what it leaves over: less than the divisor, and on the side of zero where the
dividend is (`IsQuotient`). It is never farther from zero than the dividend, so that in a signed
range there is one division whose quotient lies outside it (`tdiv_range_iff`). -/
namespace BaseThree

/-- What `q` leaves over is smaller than the divisor, and zero or of the dividend's sign. -/
structure IsQuotient (left right q : Int) : Prop where
  small : (left - q * right).natAbs < right.natAbs
  sign : left - q * right = 0 ∨ (left - q * right).sign = left.sign

section
variable {left right q : Int}

theorem sub_tdiv_mul (left right : Int) : left - left.tdiv right * right = left.tmod right := by
  rw [Int.tmod_def, Int.mul_comm]

theorem isQuotient_tdiv (left : Int) (h : right ≠ 0) :
    IsQuotient left right (left.tdiv right) where
  small := by
    rw [sub_tdiv_mul, Int.natAbs_tmod]
    exact Nat.mod_lt _ (Int.natAbs_pos.2 h)
  sign := by
    rw [sub_tdiv_mul, Int.sign_tmod]
    by_cases hd : right ∣ left
    · exact .inl (Int.tmod_eq_zero_of_dvd hd)
    · exact .inr (if_neg hd)

/-- What is left over lies on the side of zero where the dividend is. -/
theorem IsQuotient.nonneg (h : IsQuotient left right q) (hl : 0 ≤ left) :
    0 ≤ left - q * right := by
  rcases h.sign with hzero | hsign
  · exact Int.le_of_eq hzero.symm
  · rw [← Int.sign_nonneg_iff, hsign]
    exact Int.sign_nonneg_iff.2 hl

theorem IsQuotient.neg (h : IsQuotient left right q) : IsQuotient (-left) right (-q) := by
  have hrest : -left - -q * right = -(left - q * right) := by
    rw [Int.neg_mul, Int.neg_sub]
    omega
  refine ⟨?_, ?_⟩
  · rw [hrest, Int.natAbs_neg]
    exact h.small
  · rw [hrest, Int.sign_neg, Int.sign_neg, Int.neg_inj, Int.neg_eq_zero]
    exact h.sign

theorem IsQuotient.eq_tdiv_of_nonneg (h : IsQuotient left right q) (hl : 0 ≤ left)
    (hr : right ≠ 0) : q = left.tdiv right := by
  have hsum : left - q * right + right * q = left := by
    rw [Int.mul_comm right]
    omega
  have hnonneg := h.nonneg hl
  have hsmall := h.small
  exact ((Int.tdiv_tmod_unique hl hr).2 ⟨hsum, hnonneg, by omega⟩).1.symm

/-- **There is one quotient.** -/
theorem isQuotient_iff (h : right ≠ 0) : IsQuotient left right q ↔ q = left.tdiv right := by
  constructor
  · intro hq
    rcases Int.le_total 0 left with hl | hl
    · exact hq.eq_tdiv_of_nonneg hl h
    · have hneg := hq.neg.eq_tdiv_of_nonneg (Int.neg_nonneg_of_nonpos hl) h
      rw [Int.neg_tdiv] at hneg
      exact Int.neg_inj.1 hneg
  · rintro rfl
    exact isQuotient_tdiv left h

/-- **In the range from `-m` up to `m - 1`, only the least value divided by minus one has its
quotient outside.** -/
theorem tdiv_range_iff {m : Int} (hm : 0 < m) (hl : -m ≤ left ∧ left ≤ m - 1) (hr : right ≠ 0) :
    ¬(-m ≤ left.tdiv right ∧ left.tdiv right ≤ m - 1) ↔ left = -m ∧ right = -1 := by
  have hsize : (left.tdiv right).natAbs = left.natAbs / right.natAbs := Int.natAbs_tdiv left right
  by_cases hunit : right.natAbs = 1
  · rcases (show right = 1 ∨ right = -1 by omega) with rfl | rfl
    · rw [Int.tdiv_one]
      omega
    · rw [Int.tdiv_neg, Int.tdiv_one]
      omega
  · have hhalf : left.natAbs / right.natAbs ≤ left.natAbs / 2 :=
      Nat.div_le_div_left (by omega) (by decide)
    omega

end

end BaseThree
