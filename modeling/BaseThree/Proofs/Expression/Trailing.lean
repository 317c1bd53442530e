import BaseThree.Proofs.Expression.Diagnosis
import BaseThree.Proofs.Reading.Stop

/-! Trailing content.

`trailing_after_value`: content trails a text exactly where what stands before it has a value by
itself and the next character does not go on with it. Such a character is met as the end of the
text would be: whatever waits for its right operand is evaluated first, for the one as for the
other (`step_trailing_iff`). -/
namespace BaseThree
open Evaluation Grammar

/-- A character that cannot go on with what has a value, digits aside. -/
structure Severs (c : Char) : Prop where
  not_blank : Text.isBlank c = false
  not_operator : c ∉ ['+', '-', '*', '/']

/-- What stands before an offset has a value, and the character there does not go on with it. -/
structure TrailsAt (settings : Settings) (text : List Char) (p : Nat) : Prop where
  value : ∃ v, evaluate settings (String.ofList (text.take p)) = .ok v
  character : ∃ c, text[p]? = some c ∧ Severs c ∧
    (endsInDigit (text.take p) = true → c.isDigit = false)

theorem severs_iff {c : Char} :
    Severs c ↔ Text.isBlank c = false ∧ Precedence.multiplicative.operator? c = none ∧
      Precedence.additive.operator? c = none := by
  constructor
  · rintro ⟨hb, hop⟩
    have hnone (p : Precedence) : p.operator? c = none := by
      cases h : p.operator? c with
      | none => rfl
      | some op =>
        have hm := Precedence.mem_of_operator? h
        refine absurd ?_ hop
        cases p <;> simp only [List.mem_cons, List.not_mem_nil, or_false] at hm <;>
          rcases hm with rfl | rfl <;> decide
    exact ⟨hb, hnone _, hnone _⟩
  · rintro ⟨hb, hm, ha⟩
    refine ⟨hb, fun hop => ?_⟩
    simp only [List.mem_cons, List.not_mem_nil, or_false] at hop
    rcases hop with rfl | rfl | rfl | rfl
    · cases ha
    · cases ha
    · cases hm
    · cases hm

/-! ### A character met as the end -/

namespace Reading
variable {α : Type} {M : Meaning α} {nesting k : Nat} {c : Char} {f : Fault}

theorem readOperator_trailing_iff (hM : M.FailsAs fun f => f.kind ≠ .trailingContent) {v : α}
    {sum : Option (Pending α)} {outer : List (Level α)} (e : Nat) :
    (readOperator M v sum outer k c = .error f ∧ f.kind = .trailingContent) ↔
      f = .found .trailingContent k (some c) ∧ Severs c ∧
        ∃ w, (join M sum v >>= fun v => closeEnd v outer e) = .ok w := by
  constructor
  · rintro ⟨h, hf⟩
    rcases operator_cases c with hb | ⟨op, hm⟩ | ⟨op, ha⟩ | hother
    · rw [readOperator_blank hb] at h
      cases h
    · rw [readOperator_multiplicative hm] at h
      cases h
    · rw [readOperator_additive ha] at h
      rcases error_of_bind_eq_error h with hjoin | ⟨w, -, hw⟩
      · exact absurd hf (join_fails hM hjoin)
      · cases hw
    · rw [readOperator_other hother.1 hother.2.1 hother.2.2] at h
      rcases error_of_bind_eq_error h with hjoin | ⟨w, hw, hclose⟩
      · exact absurd hf (join_fails hM hjoin)
      · cases outer with
        | nil =>
          cases hclose
          exact ⟨rfl, severs_iff.2 hother, w, by rw [hw]; rfl⟩
        | cons level outer =>
          unfold close at hclose
          dsimp only at hclose
          split at hclose
          · rcases error_of_bind_eq_error hclose with hjoin | ⟨x, -, hx⟩
            · exact absurd hf (join_fails hM hjoin)
            · cases hx
          · cases hclose
            cases hf
  · rintro ⟨rfl, hc, w, hw⟩
    obtain ⟨hb, hm, ha⟩ := severs_iff.1 hc
    obtain ⟨x, hx, hend⟩ := exists_of_bind_eq_ok hw
    refine ⟨?_, rfl⟩
    rw [readOperator_other hb hm ha, hx]
    cases outer with
    | nil => rfl
    | cons level outer => cases hend

/-- A digit right after those of a numeral belongs to it, rightly or wrongly. -/
theorem kind_ne_of_digit (hM : M.FailsAs fun f => f.kind ≠ .trailingContent) {place : Nat}
    {digits : List Digit} {v : α} {level : Level α} {outer : List (Level α)}
    (hc : c.isDigit = true)
    (h : step M nesting ⟨.numeral place digits v, level, outer⟩ k c = .error f) :
    f.kind ≠ .trailingContent := by
  cases hd : Digit.ofChar? c with
  | some d =>
    simp only [step, hd] at h
    rcases error_of_bind_eq_error h with hnumeral | ⟨w, -, hw⟩
    · exact hM.numeral _ _ _ hnumeral
    · cases hw
  | none =>
    have hforeign : isForeignDigit c = true := by
      rw [isDigit_iff, hd] at hc
      exact hc.resolve_left (by simp)
    simp only [step, hd, hforeign, if_true] at h
    cases h
    show Fault.Kind.invalidDigit ≠ .trailingContent
    decide

theorem kind_ne_of_operand (hM : M.FailsAs fun f => f.kind ≠ .trailingContent) {level : Level α}
    {outer : List (Level α)} (h : step M nesting ⟨.operand, level, outer⟩ k c = .error f) :
    f.kind ≠ .trailingContent := by
  have hstep : Outlined _ nesting _ k c (step M nesting ⟨.operand, level, outer⟩ k c) :=
    outlined_operand hM level outer k c
  rw [h] at hstep
  rcases hstep with hkind | ⟨-, rfl⟩
  · exact hkind
  · simp only [Fault.found, Outline.rejection]
    by_cases hp : c = '('
    · simp [hp]
    · cases hforeign : isForeignDigit c <;> simp [hp]

/-- **Content trails where the text could end**, unless it goes on with the character there. -/
theorem step_trailing_iff (hM : M.FailsAs fun f => f.kind ≠ .trailingContent) (r : Reading α)
    (e : Nat) :
    (r.step M nesting k c = .error f ∧ f.kind = .trailingContent) ↔
      f = .found .trailingContent k (some c) ∧ Severs c ∧
        (r.outline.stage = .numeral → c.isDigit = false) ∧ ∃ v, r.finish M e = .ok v := by
  obtain ⟨phase, level, outer⟩ := r
  cases phase with
  | operand =>
    constructor
    · rintro ⟨h, hf⟩
      exact absurd hf (kind_ne_of_operand hM h)
    · rintro ⟨-, -, -, v, hv⟩
      cases hv
  | operator v =>
    refine (readOperator_trailing_iff hM e).trans
      (and_congr_right fun _ => and_congr_right fun _ => ?_)
    exact ⟨fun hend => ⟨nofun, hend⟩, fun hend => hend.2⟩
  | numeral place digits v =>
    cases hc : c.isDigit with
    | true =>
      constructor
      · rintro ⟨h, hf⟩
        exact absurd hf (kind_ne_of_digit hM hc h)
      · rintro ⟨-, -, hnot, -⟩
        cases hnot rfl
    | false =>
      -- The numeral has ended, and with it the product that waits for it.
      obtain ⟨hd, hforeign⟩ := isDigit_eq_false_iff.1 hc
      simp only [step, finish, hd, hforeign, Bool.false_eq_true, if_false]
      cases hjoin : join M level.product v with
      | error g =>
        constructor
        · rintro ⟨h, hf⟩
          cases h
          exact absurd hf (join_fails hM hjoin)
        · rintro ⟨-, -, -, w, hw⟩
          cases hw
      | ok w =>
        refine (readOperator_trailing_iff hM e).trans
          (and_congr_right fun _ => and_congr_right fun _ => ?_)
        exact ⟨fun hend => ⟨fun _ => trivial, hend⟩, fun hend => hend.2⟩

theorem Stops.trailing_iff (hM : M.FailsAs fun f => f.kind ≠ .trailingContent) {r : Reading α}
    {rest : List Char} :
    (r.Stops M nesting k f rest ∧ f.kind = .trailingContent) ↔
      ∃ c more, rest = c :: more ∧ f = .found .trailingContent k (some c) ∧ Severs c ∧
        (r.outline.stage = .numeral → c.isDigit = false) ∧ ∃ v, r.finish M k = .ok v := by
  cases rest with
  | nil =>
    constructor
    · rintro ⟨h, hf⟩
      have hfinish := finish_outline hM r k
      have hend : r.finish M k = .error f := h
      rw [hend] at hfinish
      rcases hfinish with hkind | ⟨-, rfl⟩
      · exact absurd hf hkind
      · have hmem := r.outline.shortfall_mem
        have hkind : r.outline.shortfall = .trailingContent := hf
        rw [hkind] at hmem
        exact absurd hmem (by decide)
    · rintro ⟨c, more, hrest, -⟩
      cases hrest
  | cons c more =>
    refine (step_trailing_iff hM r k).trans ?_
    constructor
    · rintro h
      exact ⟨c, more, rfl, h⟩
    · rintro ⟨c', more', hrest, h⟩
      cases hrest
      exact h

end Reading

namespace Meaning

theorem values_trailing (settings : Settings) :
    (values settings).FailsAs fun f => f.kind ≠ .trailingContent where
  numeral _ _ _ h := by
    intro hk
    have harithmetic := (values_fails settings).numeral _ _ _ h
    rw [hk] at harithmetic
    cases harithmetic
  operation _ _ _ _ _ h := by
    intro hk
    have harithmetic := (values_fails settings).operation _ _ _ _ _ h
    rw [hk] at harithmetic
    cases harithmetic

end Meaning

/-! ### Texts -/

/-- What reads as a value is evaluated to it. -/
theorem evaluate_of_readText {settings : Settings} {text : List Char} {v : Int}
    (h : readText settings text = .ok v) : evaluate settings (String.ofList text) = .ok v := by
  have hb := not_blank_of_grammatical (grammatical_of_readText h)
  rw [evaluate_eq_readText settings (by rw [String.toList_ofList]; exact hb), String.toList_ofList, h]
  rfl

/-- Content trails in a text where it does in the reading of it. -/
theorem readText_trailing_iff {settings : Settings} {text : List Char} {f : Fault} :
    (readText settings text = .error f ∧ f.kind = .trailingContent) ↔
      ∃ (p : Nat) (c : Char), f = .found .trailingContent p (some c) ∧ text[p]? = some c ∧
        Severs c ∧ (endsInDigit (text.take p) = true → c.isDigit = false) ∧
        ∃ v, readText settings (text.take p) = .ok v := by
  have hM := Meaning.values_trailing settings
  constructor
  · rintro ⟨h, hf⟩
    obtain ⟨u, rest, r, rfl, hfeed, hstops⟩ := Reading.exists_stop h
    obtain ⟨c, more, rfl, rfl, hc, hdigit, v, hv⟩ := (Reading.Stops.trailing_iff hM).1 ⟨hstops, hf⟩
    have hshows := Outline.shows_of_follow
      (Reading.outline_feed (Meaning.values_fails settings) hfeed)
    refine ⟨u.length, c, by rw [Nat.zero_add], ?_, hc, fun hend => ?_, v, ?_⟩
    · rw [List.getElem?_append_right (Nat.le_refl _), Nat.sub_self]
      rfl
    · rw [List.take_left] at hend
      exact hdigit (hshows.numeral.2 hend)
    · rw [List.take_left, readText, Reading.run_eq_feed, hfeed]
      exact hv
  · rintro ⟨p, c, rfl, hget, hc, hdigit, v, hv⟩
    obtain ⟨hlt, hget⟩ := List.getElem?_eq_some_iff.1 hget
    have hsplit : text = text.take p ++ c :: text.drop (p + 1) := by
      rw [← hget, ← List.drop_eq_getElem_cons hlt, List.take_append_drop]
    have hlength : (text.take p).length = p := List.length_take_of_le (Nat.le_of_lt hlt)
    rw [readText, Reading.run_eq_feed] at hv
    obtain ⟨r, hfeed, hend⟩ := exists_of_bind_eq_ok hv
    have hshows := Outline.shows_of_follow
      (Reading.outline_feed (Meaning.values_fails settings) hfeed)
    have hstep : r.step (.values settings) settings.nesting p c =
        .error (.found .trailingContent p (some c)) := ((Reading.step_trailing_iff hM r _).2
      ⟨rfl, hc, fun hs => hdigit (hshows.numeral.1 hs), v, hend⟩).1
    refine ⟨?_, rfl⟩
    rw [hsplit, readText, Reading.run_append, hfeed, ok_bind, hlength, Nat.zero_add, Reading.run,
      hstep]
    rfl

theorem evaluate_trailing_iff {settings : Settings} {text : String} {f : Fault} :
    (evaluate settings text = .error (.fault f) ∧ f.kind = .trailingContent) ↔
      ∃ (p : Nat) (c : Char), f = .found .trailingContent p (some c) ∧
        text.toList[p]? = some c ∧ TrailsAt settings text.toList p := by
  constructor
  · rintro ⟨h, hf⟩
    have hread := (readText_of_fault h (by rw [hf]; decide)).1
    obtain ⟨p, c, rfl, hget, hc, hdigit, v, hv⟩ := readText_trailing_iff.1 ⟨hread, hf⟩
    exact ⟨p, c, rfl, hget, ⟨v, evaluate_of_readText hv⟩, c, hget, hc, hdigit⟩
  · rintro ⟨p, c, rfl, hget, ⟨v, hv⟩, c', hget', hc, hdigit⟩
    rw [hget] at hget'
    cases hget'
    have hvalue := readText_of_evaluate hv
    rw [String.toList_ofList] at hvalue
    have hread : readText settings text.toList = .error (.found .trailingContent p (some c)) :=
      (readText_trailing_iff.2 ⟨p, c, rfl, hget, hc, hdigit, v, hvalue⟩).1
    have hb : isBlankText text.toList = false := by
      rw [← Bool.not_eq_true]
      intro hblank
      have hcblank := isBlankText_iff.1 hblank c (List.mem_of_getElem? hget)
      rw [hc.not_blank] at hcblank
      cases hcblank
    refine ⟨?_, rfl⟩
    rw [evaluate_eq_readText settings hb, hread]
    rfl

/-- **Content trails exactly after a value that does not go on**: the text up to it evaluates to a
value, and the character there is no blank, no operator and no digit right after one of a numeral.
It is the character that the fault names, and there is no other such place in the text. -/
theorem trailing_after_value (settings : Settings) (text : String) :
    (∀ p : Nat,
      (∃ f, evaluate settings text = .error (.fault f) ∧ f.kind = .trailingContent ∧
        f.position = some (p : Int)) ↔ TrailsAt settings text.toList p) ∧
    (∀ f, evaluate settings text = .error (.fault f) → f.kind = .trailingContent →
      ∃ (p : Nat) (c : Char), f.position = some (p : Int) ∧ text.toList[p]? = some c ∧
        f.character = some (String.singleton c)) ∧
    (∀ p q, TrailsAt settings text.toList p → TrailsAt settings text.toList q → p = q) := by
  have hfault {p : Nat} (h : TrailsAt settings text.toList p) :
      ∃ c, evaluate settings text = .error (.fault (.found .trailingContent p (some c))) := by
    obtain ⟨c, hget, -⟩ := h.character
    exact ⟨c, (evaluate_trailing_iff.2 ⟨p, c, rfl, hget, h⟩).1⟩
  refine ⟨fun p => ⟨?_, fun h => ?_⟩, fun f h hf => ?_, fun p q hp hq => ?_⟩
  · rintro ⟨f, h, hf, hposition⟩
    obtain ⟨p', c, rfl, -, htrails⟩ := evaluate_trailing_iff.1 ⟨h, hf⟩
    cases hposition
    exact htrails
  · obtain ⟨c, h⟩ := hfault h
    exact ⟨_, h, rfl, rfl⟩
  · obtain ⟨p, c, rfl, hget, -⟩ := evaluate_trailing_iff.1 ⟨h, hf⟩
    exact ⟨p, c, rfl, hget, rfl⟩
  · obtain ⟨c, hp⟩ := hfault hp
    obtain ⟨d, hq⟩ := hfault hq
    have hsame := Failure.fault.inj (Except.error.inj (hp.symm.trans hq))
    exact Int.ofNat.inj (Option.some.inj (congrArg Fault.position hsame))

/-- The blank ends the divisor, so that the digit after it does not go on with it. -/
theorem trailing_after_quotient :
    TrailsAt {} "21/2 1".toList 5 ∧
      (∃ f, evaluate {} "21/2 1" = .error (.fault f) ∧ f.kind = .trailingContent ∧
        f.position = some 5 ∧ f.character = some "1") ∧
      ∀ p, TrailsAt {} "21/2 1".toList p → p = 5 := by
  have hvalue : evaluate {} (String.ofList ("21/2 1".toList.take 5)) = .ok 3 := by
    rw [evaluate_eq_readText {} rfl]
    rfl
  have htrails : TrailsAt {} "21/2 1".toList 5 :=
    ⟨⟨3, hvalue⟩, '1', rfl, ⟨rfl, by decide⟩, fun h => by cases h⟩
  obtain ⟨hplace, hcharacter, hunique⟩ := trailing_after_value {} "21/2 1"
  obtain ⟨f, h, hf, hposition⟩ := (hplace 5).2 htrails
  refine ⟨htrails, ⟨f, h, hf, hposition, ?_⟩, fun p hp => hunique p 5 hp htrails⟩
  obtain ⟨p, c, hp, hget, hc⟩ := hcharacter f h hf
  rw [hposition] at hp
  have hp : p = 5 := by
    cases hp
    rfl
  subst hp
  cases hget
  exact hc

end BaseThree
