import BaseThree.Proofs.Expression.Form

/-! The value of an expression.

`evaluate_eq_value`: evaluating a text that has a tree gives the value of the tree, or the
first fault on the way to it; evaluating any other text fails. -/
namespace BaseThree
open Evaluation Grammar

/-- What reading a text comes to is the value of its tree. -/
theorem readText_of_isTree {settings : Settings} {text : List Char} {t : Tree}
    (h : IsTree settings text t) : readText settings text = t.value settings := by
  have hgenuine : Reading.start.Genuine := trivial
  have hvalue : t.value settings = Reading.start.evaluate settings >>=
      fun r => r.run (.values settings) settings.nesting 0 text :=
    Reading.evaluate_run hgenuine (run_of_isTree h)
  exact hvalue.symm

theorem evaluate_of_isTree {settings : Settings} {text : String} {t : Tree}
    (h : IsTree settings text.toList t) :
    evaluate settings text = (t.value settings).mapError Failure.fault := by
  rw [evaluate_eq_readText settings (not_blank_of_grammatical ⟨t, h⟩), readText_of_isTree h]

/-- A text with a value has a tree of that value. -/
theorem exists_tree_of_evaluate {settings : Settings} {text : String} {v : Int}
    (h : evaluate settings text = .ok v) :
    ∃ t, IsTree settings text.toList t ∧ t.value settings = .ok v := by
  have hread := readText_of_evaluate h
  obtain ⟨t, ht⟩ := grammatical_of_readText hread
  exact ⟨t, ht, (readText_of_isTree ht).symm.trans hread⟩

namespace Grammar

theorem Tree.ranged_of_inRange {settings : Settings} {place : Nat} {v : Int}
    (h : settings.inRange v = true) : ranged settings place v = .ok v :=
  if_pos h

theorem Tree.inRange_of_ranged {settings : Settings} {place : Nat} {v w : Int}
    (h : ranged settings place v = .ok w) : settings.inRange w = true := by
  unfold ranged at h
  split at h
  · rename_i hv
    cases h
    exact hv
  · cases h

theorem Tree.inRange_of_value {settings : Settings} {t : Tree} {v : Int}
    (h : t.value settings = .ok v) : settings.inRange v = true := by
  induction t generalizing v with
  | numeral place digits => exact inRange_of_ranged h
  | group inner ih => exact ih h
  | operation op place left right ihl ihr =>
    obtain ⟨a, -, ha⟩ := exists_of_bind_eq_ok h
    obtain ⟨b, -, hb⟩ := exists_of_bind_eq_ok ha
    split at hb
    · cases hb
    · exact inRange_of_ranged hb

end Grammar

/-- **The value of a text is that of its tree**, operands first and from left to right, and so
is its first fault; a text without a tree has a fault and no value. -/
theorem evaluate_eq_value (settings : Settings) (text : String) :
    (∀ t, IsTree settings text.toList t →
      evaluate settings text = (t.value settings).mapError Failure.fault) ∧
    (¬Grammatical settings text.toList → ∃ f, evaluate settings text = .error (.fault f)) := by
  constructor
  · intro t ht
    rw [evaluate_eq_readText settings (not_blank_of_grammatical ⟨t, ht⟩), readText_of_isTree ht]
  · intro hn
    cases hb : isBlankText text.toList with
    | true => exact ⟨_, evaluate_of_blank settings hb⟩
    | false =>
      rw [evaluate_eq_readText settings hb]
      cases hr : readText settings text.toList with
      | error f => exact ⟨f, rfl⟩
      | ok v => exact absurd (grammatical_of_readText hr) hn

/-- The divisor is a group of value zero; what is left of it in its chain never counts. -/
theorem evaluate_quotient_in_chain :
    IsTree {} "2-1/(1 -1)*2".toList
        (.operation .minus 1 (.numeral 0 [2])
          (.operation .times 10
            (.operation .divide 3 (.numeral 2 [1])
              (.group (.operation .minus 7 (.numeral 5 [1]) (.numeral 8 [1]))))
            (.numeral 11 [2]))) ∧
      evaluate {} "2-1/(1 -1)*2" =
        .error (.fault { kind := .divisionByZero, position := some 3 }) :=
  have h := isTree_iff_run.2 rfl
  ⟨h, (evaluate_eq_value {} _).1 _ h⟩

end BaseThree
