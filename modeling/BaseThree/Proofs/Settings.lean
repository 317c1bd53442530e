import BaseThree.Settings
import Mathlib.Algebra.Group.Int.Defs
import Mathlib.Algebra.Group.Nat.Defs

/-! Ranges: zero is in every range, and but for the least value a range is symmetric. -/
namespace BaseThree.Settings
variable {s : Settings} {v : Int}

theorem maxValue_eq (s : Settings) : s.maxValue = 2 ^ (s.bits - 1) - 1 := by
  rw [maxValue, Int.shiftLeft_eq, Int.one_mul]

theorem minValue_eq (s : Settings) : s.minValue = -s.maxValue - 1 := by
  unfold minValue maxValue
  omega

theorem maxValue_pos (s : Settings) : 0 < s.maxValue := by
  have hbits : 1 ≤ s.bits - 1 := by
    have hle := s.minBits_le
    unfold minBits at hle
    omega
  have hpow : (2 : Int) ^ 1 ≤ 2 ^ (s.bits - 1) := by
    exact_mod_cast Nat.pow_le_pow_right (by decide) hbits
  rw [maxValue_eq]
  omega

theorem minValue_neg (s : Settings) : s.minValue < 0 := by
  have hmin := s.minValue_eq
  have hmax := s.maxValue_pos
  omega

theorem inRange_iff : s.inRange v = true ↔
    (s.overflow = .error → s.minValue ≤ v ∧ v ≤ s.maxValue) := by
  cases ho : s.overflow with
  | unbounded => simp [inRange_of_unbounded ho]
  | error => simp [inRange_iff_of_error ho]

theorem inRange_zero (s : Settings) : s.inRange 0 = true := by
  have hmax := s.maxValue_pos
  have hmin := s.minValue_le_zero
  rw [inRange_iff]
  exact fun _ => ⟨hmin, by omega⟩

/-- What is nearer to zero than a value in range. -/
theorem inRange_of_le {w : Int} (hv : 0 ≤ v) (hle : v ≤ w) (h : s.inRange w = true) :
    s.inRange v = true := by
  have hmin := s.minValue_neg
  rw [inRange_iff] at h ⊢
  intro ho
  have hw := (h ho).2
  omega

/-- What is in range above zero is so below. -/
theorem inRange_neg (hv : 0 ≤ v) (h : s.inRange v = true) : s.inRange (-v) = true := by
  have hmin := s.minValue_eq
  have hmax := s.maxValue_pos
  rw [inRange_iff] at h ⊢
  intro ho
  have hle := (h ho).2
  omega

theorem inRange_minValue (s : Settings) : s.inRange s.minValue = true := by
  have hmin := s.minValue_neg
  have hmax := s.maxValue_pos
  rw [inRange_iff]
  exact fun _ => ⟨Int.le_refl _, by omega⟩

/-- The least value is the one that cannot be negated. -/
theorem inRange_neg_eq_false_iff (h : s.inRange v = true) :
    s.inRange (-v) = false ↔ s.overflow = .error ∧ v = s.minValue := by
  have hmin := s.minValue_eq
  have hmax := s.maxValue_pos
  rw [inRange_iff] at h
  rw [← Bool.not_eq_true, inRange_iff]
  constructor
  · intro hnot
    obtain ⟨ho, hout⟩ := Classical.not_imp.1 hnot
    have hin := h ho
    exact ⟨ho, by omega⟩
  · rintro ⟨ho, rfl⟩ hneg
    have hin := hneg ho
    omega

theorem inRange_of_natAbs_lt (h : v.natAbs < 2 ^ (s.bits - 1)) : s.inRange v = true := by
  have hmin := s.minValue_eq
  have hmax := s.maxValue_eq
  have hcast : ((2 ^ (s.bits - 1) : Nat) : Int) = 2 ^ (s.bits - 1) := by norm_cast
  rw [inRange_iff]
  intro _
  omega

/-! ### Widths -/

theorem bounded_of_lt {n : Int} (h : n < 32) : bounded n = .error (.bits n) := by
  have hnot : ¬((minBits : Int) ≤ n) := by
    show ¬((32 : Nat) : Int) ≤ n
    omega
  unfold bounded make
  exact dif_neg hnot

/-- Every width from the least one on is allowed. -/
theorem exists_bounded {n : Int} (h : 32 ≤ n) : ∃ s, bounded n = .ok s := by
  have hbits : (minBits : Int) ≤ n := h
  have hnesting : (1 : Int) ≤ standard.nesting ∧ (standard.nesting : Int) ≤ nestingLimit := by
    decide
  exact ⟨_, (dif_pos hbits).trans (dif_pos hnesting)⟩

end BaseThree.Settings
