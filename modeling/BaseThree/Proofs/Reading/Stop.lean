import BaseThree.Proofs.Reading.Completeness
import BaseThree.Proofs.Reading.Outline

/-! Where a reading stops.

A reading that comes to a fault has taken all characters up to one, or up to the end, that it
cannot take (`exists_stop`). If not the form of the text but arithmetic is at fault there, then
the first digits of a numeral, or an operator that has waited for what ends there. -/
namespace BaseThree.Reading
variable {α : Type} {M : Meaning α} {nesting k : Nat} {f : Fault} {rest : List Char}

/-- What comes next, a character or the end, is met with a fault. -/
def Stops (M : Meaning α) (nesting : Nat) (r : Reading α) (k : Nat) (f : Fault) :
    List Char → Prop
  | [] => r.finish M k = .error f
  | c :: _ => r.step M nesting k c = .error f

theorem exists_stop {r : Reading α} {w : List Char} (h : r.run M nesting k w = .error f) :
    ∃ u rest s, w = u ++ rest ∧ r.feed M nesting k u = .ok s ∧
      s.Stops M nesting (k + u.length) f rest := by
  induction w generalizing r k with
  | nil => exact ⟨[], [], r, rfl, rfl, h⟩
  | cons c w ih =>
    cases hs : r.step M nesting k c with
    | error g =>
      rw [run, hs] at h
      cases h
      exact ⟨[], c :: w, r, rfl, rfl, hs⟩
    | ok s =>
      rw [run, hs, ok_bind] at h
      obtain ⟨u, rest, s', rfl, hfeed, hstops⟩ := ih h
      refine ⟨c :: u, rest, s', rfl, ?_, ?_⟩
      · rw [feed, hs, ok_bind]
        exact hfeed
      · rw [List.length_cons, Nat.add_comm u.length, ← Nat.add_assoc]
        exact hstops

variable {level : Level α} {outer : List (Level α)}

/-- Where an operand has to start, only a digit can be at fault by its value. -/
theorem Stops.operand (h : Stops M nesting ⟨.operand, level, outer⟩ k f rest)
    (hf : f.kind.isArithmetic = true) :
    ∃ c more d, rest = c :: more ∧ Digit.ofChar? c = some d ∧ M.numeral k [d] = .error f := by
  cases rest with
  | nil =>
    cases h
    cases hf
  | cons c more =>
    have hstep : step M nesting ⟨.operand, level, outer⟩ k c = .error f := h
    rcases operand_cases c with hb | rfl | ⟨d, hd⟩ | ⟨hb, hp, hd⟩
    · rw [step_operand_blank hb] at hstep
      cases hstep
    · rw [step_operand_paren] at hstep
      split at hstep
      · cases hstep
        cases hf
      · cases hstep
    · rw [step_operand_digit hd] at hstep
      rcases error_of_bind_eq_error hstep with hnumeral | ⟨v, -, hv⟩
      · exact ⟨c, more, d, rfl, hd, hnumeral⟩
      · cases hv
    · rw [step_operand_other hb hp hd] at hstep
      cases hstep
      cases hforeign : isForeignDigit c <;> rw [hforeign] at hf <;> cases hf

/-- A numeral is at fault, or else what follows it is met as after any factor. -/
theorem Stops.numeral {place : Nat} {digits : List Digit} {v : α}
    (h : Stops M nesting ⟨.numeral place digits v, level, outer⟩ k f rest)
    (hf : f.kind.isArithmetic = true) :
    (∃ c more d, rest = c :: more ∧ Digit.ofChar? c = some d ∧
      M.numeral place (digits ++ [d]) = .error f) ∨
    (NotDigit rest ∧ (join M level.product v = .error f ∨
      ∃ w, join M level.product v = .ok w ∧
        Stops M nesting ⟨.operator w, ⟨level.sum, none⟩, outer⟩ k f rest)) := by
  cases rest with
  | nil => exact .inr ⟨notDigit_nil, error_of_bind_eq_error h⟩
  | cons c more =>
    cases hd : Digit.ofChar? c with
    | some d =>
      simp only [Stops, step, hd] at h
      rcases error_of_bind_eq_error h with hnumeral | ⟨v, -, hv⟩
      · exact .inl ⟨c, more, d, rfl, hd, hnumeral⟩
      · cases hv
    | none =>
      cases hforeign : isForeignDigit c with
      | true =>
        simp only [Stops, step, hd, hforeign, if_true] at h
        cases h
        cases hf
      | false =>
        simp only [Stops, step, hd, hforeign, Bool.false_eq_true, if_false] at h
        exact .inr ⟨notDigit_cons ⟨hd, hforeign⟩, error_of_bind_eq_error h⟩

theorem close_error {v : α} {c : Char} (h : close M v outer k c = .error f)
    (hf : f.kind.isArithmetic = true) :
    ∃ level around, outer = level :: around ∧ c = ')' ∧
      join M level.product (M.group v) = .error f := by
  cases outer with
  | nil =>
    cases h
    cases hf
  | cons level around =>
    unfold close at h
    dsimp only at h
    split at h
    · rename_i hc
      rcases error_of_bind_eq_error h with hjoin | ⟨w, -, hw⟩
      · exact ⟨level, around, rfl, hc, hjoin⟩
      · cases hw
    · cases h
      cases hf

/-- After a factor a term has ended, and the sum that it ends is at fault or, if it ends a group,
the product that the group ends. -/
theorem Stops.operator {v : α} (h : Stops M nesting ⟨.operator v, level, outer⟩ k f rest)
    (hf : f.kind.isArithmetic = true) :
    (∀ c, rest.head? = some c →
      Text.isBlank c = false ∧ Precedence.multiplicative.operator? c = none) ∧
    (join M level.sum v = .error f ∨
      ∃ w above around more, join M level.sum v = .ok w ∧ outer = above :: around ∧
        rest = ')' :: more ∧ join M above.product (M.group w) = .error f) := by
  cases rest with
  | nil =>
    refine ⟨nofun, ?_⟩
    rcases error_of_bind_eq_error h with hjoin | ⟨w, -, hw⟩
    · exact .inl hjoin
    · cases outer <;> cases hw
      cases hf
  | cons c more =>
    have hstep : readOperator M v level.sum outer k c = .error f := h
    rcases operator_cases c with hb | ⟨op, hm⟩ | ⟨op, ha⟩ | ⟨hb, hm, ha⟩
    · rw [readOperator_blank hb] at hstep
      cases hstep
    · rw [readOperator_multiplicative hm] at hstep
      cases hstep
    · refine ⟨fun d hd => ?_, ?_⟩
      · cases hd
        exact ⟨Precedence.not_blank_of_operator? ha, Precedence.multiplicative_of_additive ha⟩
      · rw [readOperator_additive ha] at hstep
        rcases error_of_bind_eq_error hstep with hjoin | ⟨w, -, hw⟩
        · exact .inl hjoin
        · cases hw
    · refine ⟨fun d hd => ?_, ?_⟩
      · cases hd
        exact ⟨hb, hm⟩
      · rw [readOperator_other hb hm ha] at hstep
        rcases error_of_bind_eq_error hstep with hjoin | ⟨w, hw, hclose⟩
        · exact .inl hjoin
        · obtain ⟨above, around, rfl, rfl, hjoin⟩ := close_error hclose hf
          exact .inr ⟨w, above, around, more, hw, rfl, rfl, hjoin⟩

end BaseThree.Reading
