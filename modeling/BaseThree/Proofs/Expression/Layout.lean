import BaseThree.Proofs.Expression.Form
import BaseThree.Proofs.Reading.Tokens

/-! The layout of a text.

`evaluate_of_tokens_eq`: blanks only separate tokens. Texts of the same tokens have the same
value, or the same fault at the same place among their tokens. -/
namespace BaseThree
open Evaluation

/-- Where a fault is said to be in two texts: nowhere, at the end of its own text, or as far into
the token of the same number. -/
inductive Token.SamePlace (a b : List Char) : Option Int → Option Int → Prop
  | nowhere : SamePlace a b none none
  | last : SamePlace a b (some a.length) (some b.length)
  | within {i d p q : Nat} {s t : Token} (left : (list a)[i]? = some s)
    (right : (list b)[i]? = some t) (at_left : s.At d p) (at_right : t.At d q) :
    SamePlace a b (some p) (some q)

theorem isBlankText_iff_tokens {text : List Char} :
    isBlankText text = true ↔ (Token.list text).map Token.text = [] := by
  rw [isBlankText_iff, List.map_eq_nil_iff]
  exact (Token.splits_listFrom 0 text).eq_nil_iff.symm

/-- Tokens of the same texts stand for each other, character by character. -/
theorem matches_of_texts_eq {a b : List Char}
    (h : (Token.list a).map Token.text = (Token.list b).map Token.text) :
    List.Forall₂ (Token.Matches fun p q => Token.SamePlace a b (some p) (some q)) (Token.list a)
      (Token.list b) := by
  refine List.forall₂_iff_get.2 ⟨?_, fun i hi hj => ?_⟩
  · have hlength := congrArg List.length h
    rw [List.length_map, List.length_map] at hlength
    exact hlength
  · have htext : ((Token.list a).get ⟨i, hi⟩).text = ((Token.list b).get ⟨i, hj⟩).text := by
      have hget := congrArg (fun ts : List (List Char) => ts[i]?) h
      simpa [hi, hj] using hget
    refine ⟨htext, fun d hd => ?_⟩
    exact .within (List.getElem?_eq_getElem hi) (List.getElem?_eq_getElem hj) ⟨hd, rfl⟩
      ⟨htext ▸ hd, rfl⟩

theorem readText_eq_runTokens (settings : Settings) (text : List Char) :
    readText settings text = Reading.runTokens (.values settings) settings.nesting .start
      text.length (Token.list text) := by
  have hrun : readText settings text = Reading.runTokens (.values settings) settings.nesting
      .start (0 + text.length) (Token.list text) :=
    Reading.run_of_splits (Token.splits_listFrom 0 text) Reading.joined_operand nofun
  rw [Nat.zero_add] at hrun
  exact hrun

/-- **Blanks only separate tokens.** -/
theorem evaluate_of_tokens_eq (settings : Settings) {a b : String}
    (h : (Token.list a.toList).map Token.text = (Token.list b.toList).map Token.text) :
    SameOutcome (Token.SamePlace a.toList b.toList) (evaluate settings a) (evaluate settings b) := by
  cases ha : isBlankText a.toList with
  | true =>
    have hb : isBlankText b.toList = true := by
      rw [isBlankText_iff_tokens, ← h, ← isBlankText_iff_tokens]
      exact ha
    rw [evaluate_of_blank settings ha, evaluate_of_blank settings hb]
    exact .inr ⟨_, _, rfl, rfl, rfl, rfl, .nowhere⟩
  | false =>
    have hb : isBlankText b.toList = false := by
      rw [← Bool.not_eq_true, isBlankText_iff_tokens, ← h, ← isBlankText_iff_tokens, ha]
      exact Bool.false_ne_true
    rw [evaluate_eq_readText settings ha, evaluate_eq_readText settings hb, readText_eq_runTokens,
      readText_eq_runTokens]
    exact sameOutcome_of_agrees
      (Reading.agrees_runTokens (matches_of_texts_eq h) .last Reading.matches_start)
      fun _ _ hpq => hpq

/-- The digit 4 is at fault in both, one place into the third token. -/
theorem evaluate_spaced_numeral :
    (Token.list "1+ 04".toList).map Token.text = (Token.list " 1 +04 ".toList).map Token.text ∧
      SameOutcome (Token.SamePlace "1+ 04".toList " 1 +04 ".toList) (evaluate {} "1+ 04")
        (evaluate {} " 1 +04 ") ∧
      evaluate {} "1+ 04" =
        .error (.fault { kind := .invalidDigit, position := some 4, character := some "4" }) :=
  ⟨by decide, evaluate_of_tokens_eq {} (by decide), by
    rw [evaluate_eq_readText {} rfl]
    rfl⟩

end BaseThree
