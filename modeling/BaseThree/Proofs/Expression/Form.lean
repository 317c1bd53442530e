import BaseThree.Proofs.Reading.Completeness
import BaseThree.Proofs.Reading.Evaluation
import BaseThree.Proofs.Reading.Outline
import BaseThree.Proofs.Reading.Soundness

/-! The form of a text.

The trees of a text and the readings of it are the same (`isTree_iff_run`), and whether a
text has a tree, or begins one that has, shows in its outline alone (`grammatical_iff`,
`viable_iff`). So does where and why reading it stops, unless values are at fault
(`readText_error`). -/
namespace BaseThree
open Evaluation Grammar

theorem isTree_iff_run {settings : Settings} {text : List Char} {t : Tree} :
    IsTree settings text t ↔ Reading.start.run .trees settings.nesting 0 text = .ok t :=
  ⟨run_of_isTree, isTree_of_run⟩

theorem grammatical_iff {settings : Settings} {text : List Char} :
    Grammatical settings text ↔
      ∃ o, Outline.start.follow settings.nesting text = some o ∧ o.complete = true := by
  constructor
  · rintro ⟨t, ht⟩
    exact Reading.follow_of_run Meaning.trees_fails (run_of_isTree ht)
  · rintro ⟨o, ho, hcomplete⟩
    obtain ⟨t, ht⟩ := Reading.run_of_follow (r := .start) Meaning.trees_fails 0 ho hcomplete
    exact ⟨t, isTree_of_run ht⟩

theorem isBlankText_iff {text : List Char} : isBlankText text = true ↔ IsBlank text :=
  List.all_eq_true

theorem not_blank_of_grammatical {settings : Settings} {text : List Char}
    (h : Grammatical settings text) : isBlankText text = false := by
  obtain ⟨t, ht⟩ := h
  cases hb : isBlankText text with
  | false => rfl
  | true =>
    have hstep (k : Nat) (c : Char) (hc : Text.isBlank c = true) :
        Reading.start.step .trees settings.nesting k c = .ok Reading.start :=
      Reading.step_operand_blank hc
    have hrun := Reading.run_blanks hstep (isBlankText_iff.1 hb) 0 []
    rw [List.append_nil, run_of_isTree ht] at hrun
    cases hrun

/-- A text that reads as a value has a tree. -/
theorem grammatical_of_readText {settings : Settings} {text : List Char} {v : Int}
    (h : readText settings text = .ok v) : Grammatical settings text :=
  grammatical_iff.2 (Reading.follow_of_run (Meaning.values_fails settings) h)

/-- A text that some grammatical text begins with. -/
def Viable (settings : Settings) (u : List Char) : Prop := ∃ w, Grammatical settings (u ++ w)

theorem viable_iff {settings : Settings} {u : List Char} :
    Viable settings u ↔ ∃ o, Outline.start.follow settings.nesting u = some o := by
  constructor
  · rintro ⟨w, hw⟩
    obtain ⟨o', ho', -⟩ := grammatical_iff.1 hw
    rw [Outline.follow_append] at ho'
    obtain ⟨o, ho, -⟩ := Option.bind_eq_some_iff.1 ho'
    exact ⟨o, ho⟩
  · rintro ⟨o, ho⟩
    obtain ⟨w, o', ho', hcomplete⟩ := Outline.exists_completion settings.nesting o
    refine ⟨w, grammatical_iff.2 ⟨o', ?_, hcomplete⟩⟩
    rw [Outline.follow_append, ho]
    exact ho'

/-- Where and why reading a text stops: at the first character that its outline does not
accept, or at an end that comes too early. -/
theorem readText_error {settings : Settings} {text : List Char} {f : Fault}
    (h : readText settings text = .error f) (hf : f.kind.isArithmetic = false) :
    ∃ (p : Nat) (o : Outline), p ≤ text.length ∧ f.position = some (p : Int) ∧
      Outline.start.follow settings.nesting (text.take p) = some o ∧
      ((∃ c, text[p]? = some c ∧ o.accepts settings.nesting c = false ∧
          f.kind = o.rejection c ∧ f.character = some (String.singleton c)) ∨
        (p = text.length ∧ o.complete = false ∧ f.kind = o.shortfall ∧ f.character = none)) := by
  have herror := Reading.run_error (r := .start) (Meaning.values_fails settings) h
    (by rw [hf]; decide)
  simp only [Nat.zero_add] at herror
  rcases herror with ⟨u, c, rest, o, rfl, ho, hc, rfl⟩ | ⟨o, ho, hc, rfl⟩
  · refine ⟨u.length, o, ?_, rfl, ?_, .inl ⟨c, ?_, hc, rfl, rfl⟩⟩
    · rw [List.length_append]
      exact Nat.le_add_right _ _
    · rw [List.take_left]
      exact ho
    · rw [List.getElem?_append_right (Nat.le_refl _), Nat.sub_self]
      rfl
  · refine ⟨text.length, o, Nat.le_refl _, rfl, ?_, .inr ⟨rfl, hc, rfl, rfl⟩⟩
    rw [List.take_length]
    exact ho

/-- Reading fails for the form of a text or for arithmetic. -/
theorem readText_kind {settings : Settings} {text : List Char} {f : Fault}
    (h : readText settings text = .error f) : f.kind ≠ .emptyInput := by
  intro hk
  have hform : f.kind.isArithmetic = false := by
    rw [hk]
    rfl
  obtain ⟨p, o, -, -, -, hend⟩ := readText_error h hform
  rcases hend with ⟨c, -, -, hkind, -⟩ | ⟨-, -, hkind, -⟩
  · refine o.rejection_not_mem c ?_
    rw [← hkind, hk]
    decide
  · have hmem := o.shortfall_mem
    rw [← hkind, hk] at hmem
    exact absurd hmem (by decide)

/-- An evaluation fails for want of anything but blanks, or as the reading does. -/
theorem fault_cases {settings : Settings} {text : String} {f : Fault}
    (h : evaluate settings text = .error (.fault f)) :
    (isBlankText text.toList = true ∧ f = { kind := .emptyInput }) ∨
    (isBlankText text.toList = false ∧ readText settings text.toList = .error f) := by
  cases hb : isBlankText text.toList with
  | true =>
    rw [evaluate_of_blank settings hb] at h
    cases h
    exact .inl ⟨rfl, rfl⟩
  | false =>
    rw [evaluate_eq_readText settings hb] at h
    cases hr : readText settings text.toList with
    | ok v =>
      rw [hr] at h
      cases h
    | error g =>
      rw [hr] at h
      cases h
      exact .inr ⟨rfl, rfl⟩

/-- A value is the reading's. -/
theorem readText_of_evaluate {settings : Settings} {text : String} {v : Int}
    (h : evaluate settings text = .ok v) : readText settings text.toList = .ok v := by
  cases hb : isBlankText text.toList with
  | true =>
    rw [evaluate_of_blank settings hb] at h
    cases h
  | false =>
    rw [evaluate_eq_readText settings hb] at h
    cases hr : readText settings text.toList with
    | ok w =>
      rw [hr] at h
      cases h
      rfl
    | error f =>
      rw [hr] at h
      cases h

/-- A fault of form is one of the reading. -/
theorem readText_of_fault {settings : Settings} {text : String} {f : Fault}
    (h : evaluate settings text = .error (.fault f))
    (hf : f.kind ∉ [.emptyInput, .divisionByZero, .overflow]) :
    readText settings text.toList = .error f ∧ f.kind.isArithmetic = false := by
  refine ⟨?_, Fault.Kind.isArithmetic_of_not_mem hf⟩
  rcases fault_cases h with ⟨-, rfl⟩ | ⟨-, hr⟩
  · exact absurd (by decide) hf
  · exact hr

end BaseThree
