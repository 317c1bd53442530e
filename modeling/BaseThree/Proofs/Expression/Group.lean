import BaseThree.Proofs.Expression.Form
import BaseThree.Proofs.Reading.Group

/-! Groups in a text.

`evaluate_group_congr`: of a group only its value counts. Two texts of one value may stand for
each other between parentheses, whatever is before and after them, well-formed or not; what is
found after them is found as much farther on as the one is longer than the other. -/
namespace BaseThree
open Evaluation

/-- Whether an outcome says that parentheses are nested too deep. -/
def TooDeep (x : Except Failure Int) : Prop :=
  ∃ f, x = .error (.fault f) ∧ f.kind = .nestingTooDeep

/-- Offsets up to `n` stand for themselves, those after it for the ones `m` farther on. -/
def Shifted (n : Nat) (m : Int) (p q : Nat) : Prop :=
  (p ≤ n ∧ q = p) ∨ (n < p ∧ n < q ∧ (q : Int) - p = m)

/-- Positions at shifted offsets. -/
def ShiftedBy (n : Nat) (m : Int) (x y : Option Int) : Prop :=
  ∃ p q : Nat, x = some (p : Int) ∧ y = some (q : Int) ∧ Shifted n m p q

theorem isBlankText_group (u s w : List Char) :
    isBlankText (u ++ '(' :: (s ++ ')' :: w)) = false := by
  have hparen : Text.isBlank '(' = false := by decide
  simp [isBlankText, hparen]

/-- What is read with a group in it is too deep with one of two texts in the group, or the same
with both. -/
theorem readText_group {settings : Settings} {s s' : List Char} {v : Int}
    (hs : readText settings s = .ok v) (hs' : readText settings s' = .ok v) (u w : List Char) :
    (∃ f, readText settings (u ++ '(' :: (s ++ ')' :: w)) = .error f ∧ f.kind = .nestingTooDeep) ∨
    (∃ f, readText settings (u ++ '(' :: (s' ++ ')' :: w)) = .error f ∧ f.kind = .nestingTooDeep) ∨
    Agrees (Shifted u.length ((s'.length : Int) - s.length)) Eq
      (readText settings (u ++ '(' :: (s ++ ')' :: w)))
      (readText settings (u ++ '(' :: (s' ++ ')' :: w))) := by
  have hbefore (i : Nat) (hi : i ≤ u.length) :
      Shifted u.length ((s'.length : Int) - s.length) i i := .inl ⟨hi, rfl⟩
  have hfeed : Agrees (Shifted u.length ((s'.length : Int) - s.length)) (Reading.Matches _)
      (Reading.start.feed (.values settings) settings.nesting 0 u)
      (Reading.start.feed (.values settings) settings.nesting 0 u) :=
    Reading.agrees_feed Reading.matches_start fun i hi => hbefore _ (by omega)
  unfold readText
  rw [Reading.run_append, Reading.run_append]
  cases hu : Reading.start.feed (.values settings) settings.nesting 0 u with
  | error f =>
    rw [hu] at hfeed
    exact .inr (.inr hfeed)
  | ok r =>
    rw [hu] at hfeed
    have hstep : Agrees _ (Reading.Matches _)
        (r.step (.values settings) settings.nesting (0 + u.length) '(')
        (r.step (.values settings) settings.nesting (0 + u.length) '(') :=
      Reading.agrees_step hfeed (hbefore _ (by omega)) '('
    rw [ok_bind, ok_bind, Reading.run, Reading.run]
    cases hopen : r.step (.values settings) settings.nesting (0 + u.length) '(' with
    | error f =>
      rw [hopen] at hstep
      exact .inr (.inr hstep)
    | ok r' =>
      rw [hopen] at hstep
      obtain ⟨level, outer, rfl⟩ := Reading.step_open hopen
      rw [ok_bind, ok_bind]
      rcases Reading.run_group hs level outer (0 + u.length + 1) w with hgroup | hdeep
      · rcases Reading.run_group hs' level outer (0 + u.length + 1) w with hgroup' | hdeep'
        · rw [hgroup, hgroup']
          have houter : List.Forall₂ (Level.Matches _) (level :: outer) (level :: outer) :=
            hstep.outer
          cases houter with
          | cons hlevel houter =>
            refine .inr (.inr (Reading.agrees_runAfter hlevel houter v fun i _ => ?_))
            exact .inr ⟨by omega, by omega, by omega⟩
        · exact .inr (.inl hdeep')
      · exact .inl hdeep

/-- **Of a group only its value counts.** -/
theorem evaluate_group_congr {settings : Settings} {s s' : String} {v : Int}
    (hs : evaluate settings s = .ok v) (hs' : evaluate settings s' = .ok v) (u w : String)
    (hdeep : ¬TooDeep (evaluate settings (u ++ "(" ++ s ++ ")" ++ w)))
    (hdeep' : ¬TooDeep (evaluate settings (u ++ "(" ++ s' ++ ")" ++ w))) :
    SameOutcome (ShiftedBy u.length ((s'.length : Int) - s.length))
      (evaluate settings (u ++ "(" ++ s ++ ")" ++ w))
      (evaluate settings (u ++ "(" ++ s' ++ ")" ++ w)) := by
  have htext (s : String) : (u ++ "(" ++ s ++ ")" ++ w).toList =
      u.toList ++ '(' :: (s.toList ++ ')' :: w.toList) := by
    simp
  have hread (s : String) : evaluate settings (u ++ "(" ++ s ++ ")" ++ w) =
      (readText settings (u.toList ++ '(' :: (s.toList ++ ')' :: w.toList))).mapError .fault := by
    rw [evaluate_eq_readText settings (by rw [htext]; exact isBlankText_group _ _ _), htext]
  rw [hread] at hdeep hdeep' ⊢
  rw [hread]
  rcases readText_group (readText_of_evaluate hs) (readText_of_evaluate hs') u.toList w.toList with
    ⟨f, hf, hkind⟩ | ⟨f, hf, hkind⟩ | hagrees
  · rw [hf] at hdeep
    exact absurd ⟨f, rfl, hkind⟩ hdeep
  · rw [hf] at hdeep'
    exact absurd ⟨f, rfl, hkind⟩ hdeep'
  · exact sameOutcome_of_agrees hagrees fun p q hpq => ⟨p, q, rfl, rfl, hpq⟩

/-- The second operand of the product is missing, five characters farther on. -/
theorem evaluate_group_in_fragment :
    evaluate {} ("2*" ++ "(" ++ "10" ++ ")" ++ "*)") =
        .error (.fault { kind := .unexpectedCharacter, position := some 7, character := some ")" }) ∧
      SameOutcome (ShiftedBy 2 5) (evaluate {} ("2*" ++ "(" ++ "10" ++ ")" ++ "*)"))
        (evaluate {} ("2*" ++ "(" ++ "(1)+1+1" ++ ")" ++ "*)")) := by
  have hread {text : String} {x : Except Failure Int} (hb : isBlankText text.toList = false)
      (h : (readText {} text.toList).mapError .fault = x) : evaluate {} text = x := by
    rw [evaluate_eq_readText {} hb]
    exact h
  have hnot {x : Except Failure Int} {f : Fault} (h : x = .error (.fault f))
      (hf : f.kind ≠ .nestingTooDeep) : ¬TooDeep x := by
    rintro ⟨g, hg, hkind⟩
    rw [h] at hg
    cases hg
    exact hf hkind
  have hshort : evaluate {} ("2*" ++ "(" ++ "10" ++ ")" ++ "*)") = .error (.fault
      { kind := .unexpectedCharacter, position := some 7, character := some ")" }) := by
    rw [show "2*" ++ "(" ++ "10" ++ ")" ++ "*)" = "2*(10)*)" from rfl]
    exact hread rfl rfl
  have hlong : evaluate {} ("2*" ++ "(" ++ "(1)+1+1" ++ ")" ++ "*)") = .error (.fault
      { kind := .unexpectedCharacter, position := some 12, character := some ")" }) := by
    rw [show "2*" ++ "(" ++ "(1)+1+1" ++ ")" ++ "*)" = "2*((1)+1+1)*)" from rfl]
    exact hread rfl rfl
  have hten : evaluate {} "10" = .ok 3 := hread rfl rfl
  have hsum : evaluate {} "(1)+1+1" = .ok 3 := hread rfl rfl
  exact ⟨hshort, evaluate_group_congr hten hsum "2*" "*)" (hnot hshort nofun) (hnot hlong nofun)⟩

end BaseThree
