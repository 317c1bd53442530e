import BaseThree.Proofs.Reading

/-! Readings under two nesting limits.

A limit is looked at in one place only: where a group begins. There the lower of two limits may
be met and the other not; everywhere else the two readings do the same (`step_limit`). So they come
to the same end, unless the one with the lower limit finds parentheses nested too deep
(`run_limit`). -/
namespace BaseThree.Reading
variable {α : Type} {M : Meaning α} {m n : Nat}

/-- The same with both limits, or too deep for the first. -/
def SameOrTooDeep {β : Type} (x y : Except Fault β) : Prop :=
  x = y ∨ ∃ f, x = .error f ∧ f.kind = .nestingTooDeep

theorem step_limit (hmn : m ≤ n) (r : Reading α) (k : Nat) (c : Char) :
    SameOrTooDeep (r.step M m k c) (r.step M n k c) := by
  obtain ⟨phase, level, outer⟩ := r
  cases phase with
  | numeral | operator => exact .inl rfl
  | operand =>
    by_cases hc : c = '('
    · subst hc
      by_cases hm : m ≤ outer.length
      · rw [step_operand_paren, if_pos hm]
        exact .inr ⟨_, rfl, rfl⟩
      · rw [step_operand_open (by omega), step_operand_open (by omega)]
        exact .inl rfl
    · left
      simp only [step, readOperand, if_neg hc]

theorem run_limit (hmn : m ≤ n) (r : Reading α) (k : Nat) (w : List Char) :
    SameOrTooDeep (r.run M m k w) (r.run M n k w) := by
  induction w generalizing r k with
  | nil => exact .inl rfl
  | cons c rest ih =>
    unfold run
    rcases step_limit hmn r k c with hstep | ⟨f, hstep, hf⟩
    · rw [hstep]
      cases r.step M n k c with
      | error f => exact .inl rfl
      | ok s => exact ih s (k + 1)
    · rw [hstep]
      exact .inr ⟨f, rfl, hf⟩

end BaseThree.Reading
