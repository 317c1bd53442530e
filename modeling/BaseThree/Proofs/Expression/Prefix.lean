import BaseThree.Proofs.Expression.Form

/-! Where a fault of form is found.

`fault_after_viable`: it is found as early as can be and no earlier. What stands before it
begins some grammatical text, and with the character it names nothing does any more; at the
end of the text the text itself has no tree. -/
namespace BaseThree
open Evaluation Grammar

/-- A text is viable as long as its outline accepts what comes next. -/
theorem not_viable_of_rejected {settings : Settings} {u : List Char} {c : Char} {o : Outline}
    (ho : Outline.start.follow settings.nesting u = some o)
    (hc : o.accepts settings.nesting c = false) : ¬Viable settings (u ++ [c]) := by
  intro h
  obtain ⟨o', ho'⟩ := viable_iff.1 h
  rw [Outline.follow_append, ho] at ho'
  have hstep : o.follow settings.nesting [c] = some o' := ho'
  unfold Outline.follow at hstep
  rw [hc] at hstep
  cases hstep

theorem not_grammatical_of_incomplete {settings : Settings} {text : List Char} {o : Outline}
    (ho : Outline.start.follow settings.nesting text = some o) (hc : o.complete = false) :
    ¬Grammatical settings text := by
  intro h
  obtain ⟨o', ho', hcomplete⟩ := grammatical_iff.1 h
  rw [ho] at ho'
  cases ho'
  rw [hc] at hcomplete
  cases hcomplete

/-- **A fault of form stands right after the longest prefix that can still be completed.**
The only other fault without a value is that of a text of nothing but blanks, which stands
nowhere. -/
theorem fault_after_viable (settings : Settings) (text : String) :
    (∀ f, evaluate settings text = .error (.fault f) →
      f.kind ∉ [.emptyInput, .divisionByZero, .overflow] →
      ∃ p : Nat, f.position = some (p : Int) ∧ p ≤ text.toList.length ∧
        Viable settings (text.toList.take p) ∧
        ((∃ c, text.toList[p]? = some c ∧ f.character = some (String.singleton c) ∧
            ¬Viable settings (text.toList.take (p + 1))) ∨
          (p = text.toList.length ∧ f.character = none ∧ ¬Grammatical settings text.toList))) ∧
    ((∃ f, evaluate settings text = .error (.fault f) ∧ f.kind = .emptyInput) ↔
      ∀ c ∈ text.toList, Text.isBlank c = true) ∧
    (∀ f, evaluate settings text = .error (.fault f) → f.kind = .emptyInput →
      f.position = none ∧ f.character = none) := by
  refine ⟨fun f h hf => ?_, ⟨?_, fun hb => ?_⟩, fun f h hf => ?_⟩
  · obtain ⟨hread, hform⟩ := readText_of_fault h hf
    obtain ⟨p, o, hp, hposition, ho, hend⟩ := readText_error hread hform
    refine ⟨p, hposition, hp, viable_iff.2 ⟨o, ho⟩, ?_⟩
    rcases hend with ⟨c, hget, hc, -, hcharacter⟩ | ⟨rfl, hc, -, hcharacter⟩
    · refine .inl ⟨c, hget, hcharacter, ?_⟩
      rw [List.take_add_one, hget]
      exact not_viable_of_rejected ho hc
    · rw [List.take_length] at ho
      exact .inr ⟨rfl, hcharacter, not_grammatical_of_incomplete ho hc⟩
  · rintro ⟨f, h, hf⟩
    rcases fault_cases h with ⟨hb, -⟩ | ⟨-, hr⟩
    · exact isBlankText_iff.1 hb
    · exact absurd hf (readText_kind hr)
  · exact ⟨_, evaluate_of_blank settings (isBlankText_iff.2 hb), rfl⟩
  · rcases fault_cases h with ⟨-, rfl⟩ | ⟨-, hr⟩
    · exact ⟨rfl, rfl⟩
    · exact absurd hf (readText_kind hr)

/-- The digit 4 ends every hope for the text, the group before it does not. -/
theorem foreign_digit_after_viable :
    evaluate {} "2+(1*4" =
        .error (.fault { kind := .invalidDigit, position := some 5, character := some "4" }) ∧
      Viable {} "2+(1*".toList ∧ ¬Viable {} "2+(1*4".toList := by
  have h : evaluate {} "2+(1*4" =
      .error (.fault { kind := .invalidDigit, position := some 5, character := some "4" }) := by
    rw [evaluate_eq_readText {} rfl]
    rfl
  obtain ⟨p, hp, -, hviable, hor⟩ := (fault_after_viable {} "2+(1*4").1 _ h (by decide)
  have hp : p = 5 := by
    cases hp
    rfl
  subst hp
  refine ⟨h, hviable, ?_⟩
  rcases hor with ⟨c, -, -, hnot⟩ | ⟨hlength, -⟩
  · exact hnot
  · exact absurd hlength (by decide)

end BaseThree
