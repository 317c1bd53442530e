import BaseThree.Proofs.Expression.Diagnosis
import BaseThree.Proofs.Expression.Group
import BaseThree.Proofs.Reading.Limit

/-! The nesting limit.

`evaluate_limited`: a limit on nesting changes nothing but where a text is too deep for it. It is
where the text has more parentheses open than the limit allows for the first time, and nowhere
else; groups that have been closed do not count. -/
namespace BaseThree
open Evaluation

/-- Nowhere in a text are more than `m` parentheses open. -/
def Shallow (m : Nat) (text : List Char) : Prop := ∀ k, balance (text.take k) ≤ m

/-- The character at an offset is the first with which more than `m` parentheses are open. -/
structure ExceedsAt (m : Nat) (text : List Char) (p : Nat) : Prop where
  lt : p < text.length
  balance : balance (text.take (p + 1)) = m + 1
  before : ∀ q < p, BaseThree.balance (text.take (q + 1)) < m + 1

/-- A text that the outline can follow stays within the limit. -/
theorem shallow_of_follow {m : Nat} {u : List Char} {o : Outline}
    (h : Outline.start.follow m u = some o) : Shallow m u := by
  intro k
  rw [← List.take_append_drop k u, Outline.follow_append] at h
  obtain ⟨o', ho', -⟩ := Option.bind_eq_some_iff.1 h
  have hshows := Outline.shows_of_follow ho'
  have hdepth := hshows.depth
  have hle := hshows.depth_le
  omega

theorem shallow_of_readText {settings : Settings} {text : List Char} {v : Int}
    (h : readText settings text = .ok v) : Shallow settings.nesting text := by
  obtain ⟨o, ho, -⟩ := Reading.follow_of_run (Meaning.values_fails settings) h
  exact shallow_of_follow ho

/-- Where reading finds parentheses nested too deep. -/
theorem exceedsAt_of_tooDeep {settings : Settings} {text : List Char} {f : Fault}
    (h : readText settings text = .error f) (hf : f.kind = .nestingTooDeep) :
    f.character = some "(" ∧
      ∃ p : Nat, f.position = some (p : Int) ∧ ExceedsAt settings.nesting text p := by
  have hform : f.kind.isArithmetic = false := by
    rw [hf]
    rfl
  obtain ⟨p, o, -, hposition, ho, hend⟩ := readText_error h hform
  rcases hend with ⟨c, hget, hc, hkind, hcharacter⟩ | ⟨-, -, hkind, -⟩
  · have hdeep : o.rejection c = .nestingTooDeep := hkind.symm.trans hf
    have hfull := (Outline.shows_of_follow ho).balance_of_rejected hc hdeep
    obtain ⟨-, rfl⟩ := Outline.rejection_eq_nestingTooDeep hdeep
    refine ⟨hcharacter, p, hposition, (List.getElem?_eq_some_iff.1 hget).1, ?_, fun q hq => ?_⟩
    · rw [List.take_add_one, hget, balance_append, hfull]
      rfl
    · have hbefore := shallow_of_follow ho (q + 1)
      rw [List.take_take, Nat.min_eq_left (show q + 1 ≤ p from hq)] at hbefore
      omega
  · have hmem := o.shortfall_mem
    rw [← hkind, hf] at hmem
    exact absurd hmem (by decide)

theorem not_shallow_of_exceedsAt {m p : Nat} {text : List Char} (h : ExceedsAt m text p) :
    ¬Shallow m text := by
  intro hshallow
  have hle := hshallow (p + 1)
  have hbalance := h.balance
  omega

/-- A fault of nesting is one of the reading. -/
theorem readText_of_tooDeep {settings : Settings} {text : String} {f : Fault}
    (h : evaluate settings text = .error (.fault f)) (hf : f.kind = .nestingTooDeep) :
    readText settings text.toList = .error f := by
  refine (readText_of_fault h ?_).1
  rw [hf]
  decide

theorem evaluate_limit {lower upper : Settings} (hoverflow : lower.overflow = upper.overflow)
    (hbits : lower.bits = upper.bits) (hnesting : lower.nesting ≤ upper.nesting) (text : String) :
    evaluate lower text = evaluate upper text ∨ TooDeep (evaluate lower text) := by
  -- What numerals and operators amount to has nothing to do with the limit.
  have hvalues : Meaning.values lower = Meaning.values upper := by
    unfold Meaning.values Grammar.Tree.ranged Settings.inRange Settings.minValue Settings.maxValue
    rw [hoverflow, hbits]
  cases hb : isBlankText text.toList with
  | true =>
    rw [evaluate_of_blank lower hb, evaluate_of_blank upper hb]
    exact .inl rfl
  | false =>
    rw [evaluate_eq_readText lower hb, evaluate_eq_readText upper hb]
    unfold readText
    rw [hvalues]
    rcases Reading.run_limit hnesting .start 0 text.toList with hsame | ⟨f, hdeep, hf⟩
    · rw [hsame]
      exact .inl rfl
    · rw [hdeep]
      exact .inr ⟨f, rfl, hf⟩

/-- **A limit on nesting changes nothing but where a text is too deep for it**, and that is where
the text has more parentheses open than the limit for the first time. A text that has a value
with a higher limit has it with the lower one, too, if it is nowhere deeper than that. -/
theorem evaluate_limited (lower upper : Settings) (hoverflow : lower.overflow = upper.overflow)
    (hbits : lower.bits = upper.bits) (hnesting : lower.nesting ≤ upper.nesting) (text : String) :
    (¬TooDeep (evaluate lower text) → evaluate lower text = evaluate upper text) ∧
    (∀ f, evaluate lower text = .error (.fault f) → f.kind = .nestingTooDeep →
      f.character = some "(" ∧
        ∃ p : Nat, f.position = some (p : Int) ∧ ExceedsAt lower.nesting text.toList p) ∧
    (∀ v, evaluate upper text = .ok v →
      (Shallow lower.nesting text.toList → evaluate lower text = .ok v) ∧
      (¬Shallow lower.nesting text.toList → TooDeep (evaluate lower text))) := by
  have hlimit := evaluate_limit hoverflow hbits hnesting text
  have hexceeds (f : Fault) (h : evaluate lower text = .error (.fault f))
      (hf : f.kind = .nestingTooDeep) := exceedsAt_of_tooDeep (readText_of_tooDeep h hf) hf
  refine ⟨fun hnot => hlimit.resolve_right hnot, hexceeds, fun v hv => ⟨fun hshallow => ?_,
    fun hdeep => ?_⟩⟩
  · rcases hlimit with hsame | ⟨f, h, hf⟩
    · rw [hsame, hv]
    · obtain ⟨-, p, -, hp⟩ := hexceeds f h hf
      exact absurd hshallow (not_shallow_of_exceedsAt hp)
  · rcases hlimit with hsame | htoo
    · rw [hv] at hsame
      exact absurd (shallow_of_readText (readText_of_evaluate hsame)) hdeep
    · exact htoo

/-- The first group is closed when the second one begins, so it is the group inside that one that
is too deep. -/
theorem evaluate_limited_siblings :
    evaluate {nesting := 2} "(1)+((2)*2)" = .ok 5 ∧ ¬Shallow 1 "(1)+((2)*2)".toList ∧
      TooDeep (evaluate {nesting := 1} "(1)+((2)*2)") := by
  have hvalue : evaluate {nesting := 2} "(1)+((2)*2)" = .ok 5 := by
    rw [evaluate_eq_readText _ rfl]
    rfl
  have hdeep : ¬Shallow 1 "(1)+((2)*2)".toList := fun h => absurd (h 6) (by decide)
  have hlimited := evaluate_limited {nesting := 1} {nesting := 2} rfl rfl (by decide) "(1)+((2)*2)"
  exact ⟨hvalue, hdeep, (hlimited.2.2 5 hvalue).2 hdeep⟩

end BaseThree
