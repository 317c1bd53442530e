import BaseThree.Proofs.Numeral
import BaseThree.Proofs.Reading

/-! The size of what a reading has in hand.

A value is as large as the number of values from zero to it, and what is in hand as the product
of its values. No operator makes more of its operands than their product, and a digit makes a
numeral at most three times as large; so what is in hand is no larger than three to the power of
the digits read (`bounded_step`, `bounded_run`). That holds up to a fault, too: a value that
overflows is no larger either. -/
namespace BaseThree

/-- How many values there are from zero to this one. -/
def extent (v : Int) : Nat := v.natAbs + 1

theorem extent_pos (v : Int) : 0 < extent v := Nat.succ_pos v.natAbs

/-- What an operator makes of its operands is no larger than their product. -/
theorem extent_result_le {op : Operator} {a b v : Int} (h : op.result? a b = some v) :
    extent v ≤ extent a * extent b := by
  have hexpand : extent a * extent b = a.natAbs * b.natAbs + a.natAbs + b.natAbs + 1 := by
    unfold extent
    ring
  rw [hexpand, extent]
  cases op with
  | plus =>
    cases h
    have hadd := Int.natAbs_add_le a b
    omega
  | minus =>
    cases h
    have hsub := Int.natAbs_sub_le a b
    omega
  | times =>
    cases h
    rw [Int.natAbs_mul]
    omega
  | divide =>
    rw [Operator.result?] at h
    split at h
    · cases h
    · cases h
      have hdiv : (a.tdiv b).natAbs ≤ a.natAbs := by
        rw [Int.natAbs_tdiv]
        exact Nat.div_le_self a.natAbs b.natAbs
      omega

/-- One more digit. -/
theorem extent_concat_le (digits : List Digit) (d : Digit) :
    extent (Numeral.ofDigits (digits ++ [d])) ≤ 3 * extent (Numeral.ofDigits digits) := by
  have hd := d.isLt
  rw [Numeral.ofDigits_concat, Numeral.base]
  unfold extent
  omega

/-! ### Sizes -/

def Pending.size : Option (Pending Int) → Nat
  | none => 1
  | some p => extent p.left

def Level.size (level : Level Int) : Nat := Pending.size level.sum * Pending.size level.product

def Level.sizeAll : List (Level Int) → Nat
  | [] => 1
  | level :: outer => level.size * Level.sizeAll outer

/-- A numeral is as large as its digits make it, or as its value. -/
def Phase.size : Phase Int → Nat
  | .operand => 1
  | .numeral _ digits v => max (extent (Numeral.ofDigits digits)) (extent v)
  | .operator v => extent v

def Reading.size (r : Reading Int) : Nat := r.phase.size * (r.level.size * Level.sizeAll r.outer)

theorem Pending.size_pos (p : Option (Pending Int)) : 0 < Pending.size p := by
  cases p with
  | none => exact Nat.one_pos
  | some p => exact extent_pos p.left

theorem Level.size_pos (level : Level Int) : 0 < level.size :=
  Nat.mul_pos (Pending.size_pos level.sum) (Pending.size_pos level.product)

theorem Level.sizeAll_pos (outer : List (Level Int)) : 0 < Level.sizeAll outer := by
  induction outer with
  | nil => exact Nat.one_pos
  | cons level outer ih => exact Nat.mul_pos level.size_pos ih

namespace Reading

/-- What a numeral that ends brings to the sum that it ends. -/
theorem numeral_le_size (place : Nat) (digits : List Digit) (v : Int) (level : Level Int)
    (outer : List (Level Int)) :
    extent v * Pending.size level.product * (Pending.size level.sum * Level.sizeAll outer) ≤
      size ⟨.numeral place digits v, level, outer⟩ :=
  calc extent v * Pending.size level.product * (Pending.size level.sum * Level.sizeAll outer)
      = extent v * (level.size * Level.sizeAll outer) := by
        rw [Level.size]
        ring
    _ ≤ max (extent (Numeral.ofDigits digits)) (extent v) * (level.size * Level.sizeAll outer) :=
      Nat.mul_le_mul_right _ (Nat.le_max_right _ _)

theorem operator_le_size (v : Int) (level : Level Int) (outer : List (Level Int)) :
    extent v * (Pending.size level.sum * Level.sizeAll outer) ≤
      size ⟨.operator v, level, outer⟩ := by
  refine Nat.mul_le_mul_left _ (Nat.mul_le_mul_right _ ?_)
  exact Nat.le_mul_of_pos_right _ (Pending.size_pos level.product)

end Reading

/-! ### Bounds -/

/-- A result of at most this size, or an overflow of a value of at most this size. -/
def Bounded (settings : Settings) {α : Type} (size : α → Nat) (n : Nat) : Except Fault α → Prop
  | .ok a => size a ≤ n
  | .error f => f.kind = .overflow → ∃ v, settings.inRange v = false ∧ extent v ≤ n

section
variable {settings : Settings} {α β : Type} {size : α → Nat} {size' : β → Nat} {n m : Nat}

theorem Bounded.mono {x : Except Fault α} (h : Bounded settings size n x) (hnm : n ≤ m) :
    Bounded settings size m x := by
  cases x with
  | ok a => exact Nat.le_trans h hnm
  | error f =>
    intro hf
    obtain ⟨v, hv, hle⟩ := h hf
    exact ⟨v, hv, Nat.le_trans hle hnm⟩

/-- In a context of a given size. -/
theorem bounded_bind {x : Except Fault α} {f : α → Except Fault β} (hm : 0 < m)
    (hx : Bounded settings size n x) (hf : ∀ a, Bounded settings size' (size a * m) (f a)) :
    Bounded settings size' (n * m) (x >>= f) := by
  cases x with
  | ok a => exact (hf a).mono (Nat.mul_le_mul_right m hx)
  | error e =>
    have herror : Bounded settings size' n (.error e : Except Fault β) := hx
    exact herror.mono (Nat.le_mul_of_pos_right n hm)

theorem bounded_of_kind_ne {f : Fault} (h : f.kind ≠ .overflow) :
    Bounded settings size n (.error f : Except Fault α) := fun hf => absurd hf h

theorem bounded_ranged (place : Nat) (v : Int) :
    Bounded settings extent (extent v) (Grammar.Tree.ranged settings place v) := by
  unfold Grammar.Tree.ranged
  split
  · exact Nat.le_refl (extent v)
  · rename_i hv
    exact fun _ => ⟨v, Bool.eq_false_iff.2 hv, Nat.le_refl (extent v)⟩

end

namespace Reading
variable {settings : Settings} {nesting k : Nat} {c : Char}

theorem bounded_join (p : Option (Pending Int)) (v : Int) :
    Bounded settings extent (extent v * Pending.size p) (join (.values settings) p v) := by
  cases p with
  | none => exact Nat.le_of_eq (Nat.mul_one (extent v)).symm
  | some p =>
    simp only [join, Meaning.values, Pending.size]
    cases hw : p.op.result? p.left v with
    | none => exact bounded_of_kind_ne nofun
    | some w =>
      rw [Nat.mul_comm]
      exact (bounded_ranged p.place w).mono (extent_result_le hw)

theorem bounded_numeral (place : Nat) (digits : List Digit) (level : Level Int)
    (outer : List (Level Int)) :
    Bounded settings size
      (extent (Numeral.ofDigits digits) * (level.size * Level.sizeAll outer))
      ((Meaning.values settings).numeral place digits >>= fun v =>
        .ok ⟨.numeral place digits v, level, outer⟩) := by
  have hpos : 0 < level.size * Level.sizeAll outer :=
    Nat.mul_pos level.size_pos (Level.sizeAll_pos outer)
  simp only [Meaning.values, Grammar.Tree.ranged]
  split
  · simp only [ok_bind, Bounded, size, Phase.size, Nat.max_self, Nat.le_refl]
  · rename_i hv
    exact fun _ => ⟨_, Bool.eq_false_iff.2 hv, Nat.le_mul_of_pos_right _ hpos⟩

/-- After a complete expression. -/
theorem bounded_close (v : Int) (outer : List (Level Int)) :
    Bounded settings size (extent v * Level.sizeAll outer)
      (close (.values settings) v outer k c) := by
  cases outer with
  | nil => exact bounded_of_kind_ne nofun
  | cons level outer =>
    unfold close
    dsimp only
    split
    · have hpos := Nat.mul_pos (Pending.size_pos level.sum) (Level.sizeAll_pos outer)
      refine (bounded_bind hpos (bounded_join level.product v) fun w => ?_).mono (Nat.le_of_eq ?_)
      · simp only [Bounded, size, Phase.size, Level.size, Pending.size, Nat.mul_one, Nat.le_refl]
      · simp only [Level.sizeAll, Level.size]
        ring
    · exact bounded_of_kind_ne nofun

/-- After a factor. -/
theorem bounded_readOperator (v : Int) (sum : Option (Pending Int)) (outer : List (Level Int)) :
    Bounded settings size (extent v * (Pending.size sum * Level.sizeAll outer))
      (readOperator (.values settings) v sum outer k c) := by
  have hpos := Level.sizeAll_pos outer
  rcases operator_cases c with hb | ⟨op, hm⟩ | ⟨op, ha⟩ | ⟨hb, hm, ha⟩
  · rw [readOperator_blank hb]
    simp only [Bounded, size, Phase.size, Level.size, Pending.size, Nat.mul_one, Nat.le_refl]
  · rw [readOperator_multiplicative hm]
    refine Nat.le_of_eq ?_
    simp only [size, Phase.size, Level.size, Pending.size]
    ring
  · rw [readOperator_additive ha, ← Nat.mul_assoc]
    refine bounded_bind hpos (bounded_join sum v) fun w => ?_
    simp only [Bounded, size, Phase.size, Level.size, Pending.size, Nat.mul_one, Nat.one_mul,
      Nat.le_refl]
  · rw [readOperator_other hb hm ha, ← Nat.mul_assoc]
    exact bounded_bind hpos (bounded_join sum v) fun w => bounded_close w outer

/-- What a character can make of the size of what is in hand. -/
def gain (c : Char) : Nat := if c ∈ ['0', '1', '2'] then 3 else 1

theorem gain_of_digit {d : Digit} (h : Digit.ofChar? c = some d) : gain c = 3 :=
  if_pos (Digit.ofChar?_eq_some_iff.1 ⟨d, h⟩)

theorem gain_pos (c : Char) : 1 ≤ gain c := by
  unfold gain
  split <;> decide

/-- **A digit makes what is in hand at most three times as large**, and any other character no
larger. -/
theorem bounded_step (r : Reading Int) :
    Bounded settings size (gain c * r.size) (r.step (.values settings) nesting k c) := by
  have hstay : r.size ≤ gain c * r.size := Nat.le_mul_of_pos_left _ (gain_pos c)
  obtain ⟨phase, level, outer⟩ := r
  cases phase with
  | operand =>
    rcases operand_cases c with hb | rfl | ⟨d, hd⟩ | ⟨hb, hp, hd⟩
    · rw [step_operand_blank hb]
      exact hstay
    · rw [step_operand_paren]
      split
      · exact bounded_of_kind_ne nofun
      · refine Nat.le_trans (Nat.le_of_eq ?_) hstay
        simp only [size, Phase.size, Level.size, Level.sizeAll, Pending.size]
        ring
    · rw [step_operand_digit hd, gain_of_digit hd]
      refine (bounded_numeral k [d] level outer).mono ?_
      have hone := extent_concat_le [] d
      simp only [size, Phase.size, Nat.one_mul]
      exact Nat.mul_le_mul_right _ hone
    · rw [step_operand_other hb hp hd]
      exact bounded_of_kind_ne (by split <;> exact nofun)
  | numeral place digits v =>
    cases hd : Digit.ofChar? c with
    | some d =>
      simp only [step, hd, gain_of_digit hd]
      refine (bounded_numeral place (digits ++ [d]) level outer).mono ?_
      have hdigits := Nat.le_max_left (extent (Numeral.ofDigits digits)) (extent v)
      have hconcat := Nat.le_trans (extent_concat_le digits d) (Nat.mul_le_mul_left 3 hdigits)
      have hsize := Nat.mul_le_mul_right (level.size * Level.sizeAll outer) hconcat
      rw [Nat.mul_assoc 3] at hsize
      exact hsize
    | none =>
      simp only [step, hd]
      split
      · exact bounded_of_kind_ne nofun
      · have hpos := Nat.mul_pos (Pending.size_pos level.sum) (Level.sizeAll_pos outer)
        refine (bounded_bind hpos (bounded_join level.product v) fun w => ?_).mono
          (Nat.le_trans (numeral_le_size place digits v level outer) hstay)
        exact bounded_readOperator w level.sum outer
  | operator v =>
    exact (bounded_readOperator v level.sum outer).mono
      (Nat.le_trans (operator_le_size v level outer) hstay)

theorem bounded_closeEnd (v : Int) (outer : List (Level Int)) :
    Bounded settings extent (extent v * Level.sizeAll outer) (closeEnd v outer k) := by
  cases outer with
  | nil => exact Nat.le_of_eq (Nat.mul_one (extent v)).symm
  | cons level outer => exact bounded_of_kind_ne nofun

theorem bounded_finish (r : Reading Int) :
    Bounded settings extent r.size (r.finish (.values settings) k) := by
  obtain ⟨phase, level, outer⟩ := r
  have hsum (v : Int) : Bounded settings extent
      (extent v * (Pending.size level.sum * Level.sizeAll outer))
      (join (.values settings) level.sum v >>= fun w => closeEnd w outer k) := by
    rw [← Nat.mul_assoc]
    exact bounded_bind (Level.sizeAll_pos outer) (bounded_join level.sum v)
      fun w => bounded_closeEnd w outer
  cases phase with
  | operand => exact bounded_of_kind_ne nofun
  | numeral place digits v =>
    have hpos := Nat.mul_pos (Pending.size_pos level.sum) (Level.sizeAll_pos outer)
    exact (bounded_bind hpos (bounded_join level.product v) hsum).mono
      (numeral_le_size place digits v level outer)
  | operator v => exact (hsum v).mono (operator_le_size v level outer)

end Reading

/-! ### Texts -/

/-- How many digits of numerals a text has. -/
def digitCount (text : List Char) : Nat := text.countP (· ∈ ['0', '1', '2'])

theorem pow_digitCount_cons (c : Char) (rest : List Char) :
    3 ^ digitCount (c :: rest) = Reading.gain c * 3 ^ digitCount rest := by
  unfold digitCount Reading.gain
  rw [List.countP_cons]
  by_cases hc : c ∈ ['0', '1', '2']
  · simp only [hc, decide_true, if_true]
    ring
  · simp only [hc, decide_false, Bool.false_eq_true, if_false, Nat.add_zero, Nat.one_mul]

/-- **A reading comes to nothing larger than three to the power of the digits that it reads.** -/
theorem Reading.bounded_run {settings : Settings} {nesting : Nat} (r : Reading Int) (k : Nat)
    (w : List Char) :
    Bounded settings extent (r.size * 3 ^ digitCount w) (r.run (.values settings) nesting k w) := by
  induction w generalizing r k with
  | nil =>
    rw [show 3 ^ digitCount [] = 1 from rfl, Nat.mul_one]
    exact r.bounded_finish
  | cons c rest ih =>
    -- What the rest can still add is the context that this step is bounded in.
    have hpos : 0 < 3 ^ digitCount rest := Nat.pow_pos (by decide)
    rw [pow_digitCount_cons, ← Nat.mul_assoc, Nat.mul_comm r.size]
    exact bounded_bind hpos r.bounded_step fun s => ih s (k + 1)

end BaseThree
