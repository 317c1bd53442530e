import BaseThree.Proofs.Evaluation.Refinement
import BaseThree.Proofs.Expression.Value
import BaseThree.Proofs.Settings

/-! Ranges.

`evaluate_confined`: confining values to a range changes nothing but where an evaluation
overflows, and it overflows when a value that it would compute without the range is outside
it. So a wider range gives the same outcome, and a range that is wide enough that of no range
at all. -/
namespace BaseThree
open Evaluation Grammar

namespace Settings

/-- The same without a range. -/
def unbounded (s : Settings) : Settings := {s with overflow := .unbounded}

/-- The same with the signed range of a width. -/
def confined (s : Settings) (n : Nat) (h : minBits ≤ n) : Settings :=
  {s with overflow := .error, bits := n, minBits_le := h}

theorem nesting_confined (s : Settings) {n : Nat} (h : minBits ≤ n) :
    (s.confined n h).nesting = s.unbounded.nesting := rfl

theorem inRange_confined (s : Settings) {n : Nat} (h : minBits ≤ n) {v : Int} :
    (s.confined n h).inRange v = true ↔ -(2 ^ (n - 1)) ≤ v ∧ v ≤ 2 ^ (n - 1) - 1 := by
  have hmax : (s.confined n h).maxValue = 2 ^ (n - 1) - 1 := maxValue_eq _
  have hmin := (s.confined n h).minValue_eq
  rw [inRange_iff_of_error rfl]
  omega

theorem inRange_confined_of_le (s : Settings) {n m : Nat} (hn : minBits ≤ n) (hm : minBits ≤ m)
    (hnm : n ≤ m) {v : Int} (h : (s.confined n hn).inRange v = true) :
    (s.confined m hm).inRange v = true := by
  have hpow : (2 : Int) ^ (n - 1) ≤ 2 ^ (m - 1) := by
    exact_mod_cast Nat.pow_le_pow_right (by decide) (by omega : n - 1 ≤ m - 1)
  rw [inRange_confined] at h ⊢
  omega

theorem exists_bound (vs : List Int) : ∃ B : Nat, ∀ v ∈ vs, v.natAbs ≤ B := by
  induction vs with
  | nil => exact ⟨0, nofun⟩
  | cons v vs ih =>
    obtain ⟨B, hB⟩ := ih
    refine ⟨max v.natAbs B, fun w hw => ?_⟩
    rcases List.mem_cons.1 hw with rfl | hw
    · exact Nat.le_max_left _ _
    · exact Nat.le_trans (hB w hw) (Nat.le_max_right _ _)

/-- Finitely many values fit a width, and every greater one. -/
theorem exists_width (s : Settings) (vs : List Int) :
    ∃ N, ∀ m (hm : minBits ≤ m), N ≤ m → vs.all (s.confined m hm).inRange = true := by
  obtain ⟨B, hB⟩ := exists_bound vs
  refine ⟨B + 1, fun m hm hle => List.all_eq_true.2 fun v hv => ?_⟩
  apply inRange_of_natAbs_lt
  calc v.natAbs ≤ B := hB v hv
    _ < 2 ^ B := Nat.lt_two_pow_self
    _ ≤ 2 ^ (m - 1) := Nat.pow_le_pow_right (by decide) (by omega)

end Settings

/-! ### Without a range -/

theorem values_fails_of_unbounded {settings : Settings} (h : settings.overflow = .unbounded) :
    (Meaning.values settings).FailsAs fun f => f.kind = .divisionByZero := by
  have hranged (place : Nat) (v : Int) : Tree.ranged settings place v = .ok v :=
    if_pos (Settings.inRange_of_unbounded h v)
  constructor
  · intro place digits f hf
    simp only [Meaning.values, hranged] at hf
    cases hf
  · intro op place a b f hf
    simp only [Meaning.values] at hf
    split at hf
    · cases hf
      rfl
    · rw [hranged] at hf
      cases hf

/-- Nothing overflows. -/
theorem kind_of_unbounded {settings : Settings} (h : settings.overflow = .unbounded)
    {text : String} {f : Fault} (hf : evaluate settings text = .error (.fault f)) :
    f.kind ≠ .overflow := by
  rcases fault_cases hf with ⟨-, rfl⟩ | ⟨-, hread⟩
  · exact nofun
  · intro hk
    have herror := Reading.run_error (r := .start) (values_fails_of_unbounded h) hread
      (by rw [hk]; decide)
    rcases herror with ⟨u, c, rest, o, -, -, -, rfl⟩ | ⟨o, -, -, rfl⟩
    · refine o.rejection_not_mem c ?_
      rw [show o.rejection c = .overflow from hk]
      decide
    · have hmem := o.shortfall_mem
      rw [show o.shortfall = .overflow from hk] at hmem
      exact absurd hmem (by decide)

/-! ### Within a range -/

/-- In step with the run that keeps all values. -/
theorem evaluate_computed {settings free : Settings} (hfree : free.overflow = .unbounded)
    (hnesting : settings.nesting = free.nesting) (text : String) :
    if (computedValues free text).all settings.inRange = true then
      evaluate settings text = (outcome (whole free text.toList) (.traced text.toList)).1
    else Overflows (evaluate settings text) := by
  have hrefines := refines_whole hfree hnesting text.toList
  obtain ⟨new, hnew, hout⟩ := hrefines (.start text.toList) (.traced text.toList) [] ⟨rfl, rfl⟩ rfl
  have hcomputed : computedValues free text = new := by
    unfold computedValues
    rw [hnew, List.append_nil]
    rfl
  rw [hcomputed]
  by_cases hall : new.all settings.inRange = true
  · rw [if_pos hall] at hout ⊢
    exact hout.1
  · rw [if_neg hall] at hout ⊢
    exact hout

theorem evaluate_of_inRange {settings free : Settings} (hfree : free.overflow = .unbounded)
    (hnesting : settings.nesting = free.nesting) {text : String}
    (h : (computedValues free text).all settings.inRange = true) :
    evaluate settings text = evaluate free text := by
  have hsettings := evaluate_computed hfree hnesting text
  have hpass : (computedValues free text).all free.inRange = true :=
    List.all_eq_true.2 fun v _ => Settings.inRange_of_unbounded hfree v
  have hself := evaluate_computed hfree rfl text
  rw [if_pos h] at hsettings
  rw [if_pos hpass] at hself
  rw [hsettings, hself]

theorem overflows_iff {settings free : Settings} (hfree : free.overflow = .unbounded)
    (hnesting : settings.nesting = free.nesting) {text : String} :
    Overflows (evaluate settings text) ↔
      (computedValues free text).all settings.inRange = false := by
  constructor
  · rintro ⟨f, hf, hk⟩
    cases hall : (computedValues free text).all settings.inRange with
    | false => rfl
    | true =>
      rw [evaluate_of_inRange hfree hnesting hall] at hf
      exact absurd hk (kind_of_unbounded hfree hf)
  · intro h
    have hsettings := evaluate_computed hfree hnesting text
    rw [if_neg (by rw [h]; decide)] at hsettings
    exact hsettings

/-- **A range changes nothing but where an evaluation overflows.** -/
theorem evaluate_confined (settings : Settings) (text : String) :
    (∀ f, evaluate settings.unbounded text = .error (.fault f) → f.kind ≠ .overflow) ∧
    (∀ n (hn : Settings.minBits ≤ n),
      (evaluate (settings.confined n hn) text = evaluate settings.unbounded text ∨
        Overflows (evaluate (settings.confined n hn) text)) ∧
      (Overflows (evaluate (settings.confined n hn) text) ↔
        ∃ v ∈ computedValues settings.unbounded text,
          ¬(-(2 ^ (n - 1)) ≤ v ∧ v ≤ 2 ^ (n - 1) - 1)) ∧
      (¬Overflows (evaluate (settings.confined n hn) text) →
        ∀ m (hm : Settings.minBits ≤ m), n ≤ m →
          evaluate (settings.confined m hm) text = evaluate (settings.confined n hn) text) ∧
      (∀ v, evaluate (settings.confined n hn) text = .ok v →
        -(2 ^ (n - 1)) ≤ v ∧ v ≤ 2 ^ (n - 1) - 1)) ∧
    (∃ N, ∀ m (hm : Settings.minBits ≤ m), N ≤ m →
      evaluate (settings.confined m hm) text = evaluate settings.unbounded text) := by
  have hfree : settings.unbounded.overflow = .unbounded := rfl
  have hsame {m : Nat} (hm : Settings.minBits ≤ m)
      (h : (computedValues settings.unbounded text).all (settings.confined m hm).inRange = true) :
      evaluate (settings.confined m hm) text = evaluate settings.unbounded text :=
    evaluate_of_inRange hfree (settings.nesting_confined hm) h
  have hoverflows {m : Nat} (hm : Settings.minBits ≤ m) :
      Overflows (evaluate (settings.confined m hm) text) ↔
        (computedValues settings.unbounded text).all (settings.confined m hm).inRange = false :=
    overflows_iff hfree (settings.nesting_confined hm)
  refine ⟨fun f hf => kind_of_unbounded hfree hf, fun n hn => ⟨?_, ?_, ?_, ?_⟩, ?_⟩
  · cases hall : (computedValues settings.unbounded text).all (settings.confined n hn).inRange with
    | true => exact .inl (hsame hn hall)
    | false => exact .inr ((hoverflows hn).2 hall)
  · rw [hoverflows hn, List.all_eq_false]
    simp only [Settings.inRange_confined]
  · intro hnot m hm hnm
    have hall : (computedValues settings.unbounded text).all
        (settings.confined n hn).inRange = true := by
      rw [hoverflows hn, Bool.not_eq_false] at hnot
      exact hnot
    have hwide : (computedValues settings.unbounded text).all
        (settings.confined m hm).inRange = true := by
      refine List.all_eq_true.2 fun v hv => ?_
      exact settings.inRange_confined_of_le hn hm hnm (List.all_eq_true.1 hall v hv)
    rw [hsame hn hall, hsame hm hwide]
  · intro v hv
    obtain ⟨t, -, ht⟩ := exists_tree_of_evaluate hv
    exact (settings.inRange_confined hn).1 (Tree.inRange_of_value ht)
  · obtain ⟨N, hN⟩ := settings.exists_width (computedValues settings.unbounded text)
    exact ⟨N, fun m hm hle => hsame hm (hN m hm hle)⟩

/-- Thirty-two bits do not hold the numeral; thirty-three do, and then the group that is not
closed is at fault, whatever the width. -/
theorem evaluate_twenty_digits :
    Overflows (evaluate (({} : Settings).confined 32 (by decide)) "22222222222222222222*(1") ∧
      evaluate (({} : Settings).confined 64 (by decide)) "22222222222222222222*(1" =
        .error (.fault { kind := .missingParenthesis, position := some 23 }) := by
  obtain ⟨-, hwidths, -⟩ := evaluate_confined {} "22222222222222222222*(1"
  constructor
  · obtain ⟨-, hoverflows, -⟩ := hwidths 32 (by decide)
    exact hoverflows.2 ⟨3486784400, by decide +kernel, by decide⟩
  · obtain ⟨-, -, hwider, -⟩ := hwidths 33 (by decide)
    have hthirtythree :
        evaluate (({} : Settings).confined 33 (by decide)) "22222222222222222222*(1" =
          .error (.fault { kind := .missingParenthesis, position := some 23 }) := by
      rw [evaluate_eq_readText _ rfl]
      rfl
    have hnot : ¬Overflows
        (evaluate (({} : Settings).confined 33 (by decide)) "22222222222222222222*(1") := by
      rw [hthirtythree]
      rintro ⟨f, hf, hk⟩
      cases hf
      cases hk
    rw [hwider hnot 64 (by decide) (by decide), hthirtythree]

end BaseThree
