import BaseThree.Proofs.Evaluation.Lookahead
import BaseThree.Proofs.Expression.Form

/-! The first fault of a text.

`fault_of_lookahead`: an evaluation that fails has looked at one character after the place where
its scanner stands, and at none after that. Whatever else follows, the fault is the same. -/
namespace BaseThree
open Evaluation

namespace Evaluation
variable {settings : Settings}

/-! ### Blanks before an expression -/

theorem factor_skipBlanks (inner number : Eval Int) (s : State) :
    factor settings inner number {s with scanner := s.scanner.skipBlanks} =
      factor settings inner number s := by
  unfold factor
  rw [run_bind, run_bind]
  simp only [skipBlanks, Scanner.skipBlanks_skipBlanks]

theorem chain_congr {precedence : Precedence} {operand : Eval Int} {s t : State}
    (h : operand s = operand t) :
    chain settings precedence operand s = chain settings precedence operand t := by
  unfold chain
  rw [run_bind, run_bind, h]

/-- An expression begins with its first factor, and that with passing over blanks. -/
theorem call_skipBlanks (calls : Nat) (s : State) :
    call settings (calls + 3) .expression {s with scanner := s.scanner.skipBlanks} =
      call settings (calls + 3) .expression s :=
  chain_congr (chain_congr (factor_skipBlanks _ _ s))

variable (settings) in
theorem left_call_expression (s : State) :
    (outcome (call settings (callsFor settings) .expression) s).2.left ≤
      (s.scanner.unread.dropWhile Text.isBlank).length := by
  have hskip : outcome (call settings (callsFor settings) .expression)
      {s with scanner := s.scanner.skipBlanks} =
        outcome (call settings (callsFor settings) .expression) s := by
    unfold outcome
    rw [show callsFor settings = 3 * settings.nesting + 1 + 3 from rfl, call_skipBlanks]
  have hforward := (foresees_call (n := 0) (z := []) settings (callsFor settings)
    .expression {s with scanner := s.scanner.skipBlanks}).forward
  rw [← Scanner.unread_skipBlanks]
  rw [hskip] at hforward
  exact hforward

/-! ### The end of a text -/

theorem outcome_finish (text : List Char) (v : Int) (s : State) :
    outcome (finish text v) s =
      match s.scanner.skipBlanks.peek? with
      | none =>
        (.ok v, {s with
          scanner := s.scanner.skipBlanks
          log := s.log ++ [successLine text v]})
      | some c =>
        (.error (.fault (faultAt .trailingContent s.scanner.skipBlanks (some c))), {s with
          scanner := s.scanner.skipBlanks
          log := s.log ++ [.text (trailingLine
            (faultAt .trailingContent s.scanner.skipBlanks (some c))
            s.scanner.skipBlanks.unread)]}) := by
  have hfinish : outcome (finish text v) s =
      outcome (match s.scanner.skipBlanks.peek? with
        | none => do
          note (successLine text v)
          pure v
        | some c => do
          note (.text (trailingLine (faultAt .trailingContent s.scanner.skipBlanks (some c))
            s.scanner.skipBlanks.unread))
          throw (.fault (faultAt .trailingContent s.scanner.skipBlanks (some c))))
        {s with scanner := s.scanner.skipBlanks} := rfl
  rw [hfinish]
  cases s.scanner.skipBlanks.peek? with
  | none => rfl
  | some c => rfl

theorem scanner_finish (text : List Char) (v : Int) (s : State) :
    (outcome (finish text v) s).2.scanner = s.scanner.skipBlanks := by
  rw [outcome_finish]
  cases s.scanner.skipBlanks.peek? with
  | none => rfl
  | some c => rfl

section
variable {n : Nat} {z text text' : List Char} {f : Fault}

theorem finish_graft {v : Int} {t : State}
    (h : (outcome (finish text v) t).1 = .error (.fault f))
    (hn : n < (outcome (finish text v) t).2.left) :
    (outcome (finish text' v) (t.graft n z)).1 = .error (.fault f) := by
  have hskip : n < t.scanner.skipBlanks.unread.length := by
    rw [← scanner_finish text v t]
    exact hn
  have hgraft : (t.graft n z).scanner.skipBlanks = t.scanner.skipBlanks.graft n z :=
    Scanner.skipBlanks_graft hskip
  rw [outcome_finish] at h
  rw [outcome_finish, hgraft, Scanner.peek?_graft hskip]
  cases hp : t.scanner.skipBlanks.peek? with
  | none =>
    rw [hp] at h
    cases h
  | some c =>
    rw [hp] at h
    exact h

theorem left_finish (text : List Char) (v : Int) (t : State) :
    (outcome (finish text v) t).2.left ≤ t.left := by
  unfold State.left
  rw [scanner_finish]
  exact Scanner.skipBlanks_length_le _

/-- What follows the next character has no part in a fault of an expression, nor of what stands
after it. -/
theorem outcome_graft {s : State}
    (h : (outcome (call settings (callsFor settings) .expression >>= finish text) s).1 =
      .error (.fault f))
    (hn : n < (outcome (call settings (callsFor settings) .expression >>= finish text) s).2.left) :
    (outcome (call settings (callsFor settings) .expression >>= finish text') (s.graft n z)).1 =
      .error (.fault f) := by
  have hsame := (foresees_call (n := n) (z := z) settings (callsFor settings) .expression s).same
  rw [outcome_bind] at h hn
  cases hout : outcome (call settings (callsFor settings) .expression) s with
  | mk r t =>
    rw [hout] at h hn hsame
    cases r with
    | error e =>
      rw [outcome_bind, hsame hn]
      exact h
    | ok v =>
      rw [outcome_bind, hsame (Nat.lt_of_lt_of_le hn (left_finish text v t))]
      exact finish_graft h hn

end

theorem whole_of_not_blank {text : List Char} (hb : isBlankText text = false) :
    whole settings text = call settings (callsFor settings) .expression >>= finish text := by
  unfold whole wholeWithin
  rw [hb]
  rfl

theorem position_add_left (s : State) :
    s.scanner.position + s.left = s.scanner.text.length := s.scanner.length_text.symm

/-- An evaluation of a text that is not blank has come past the blanks before it. -/
theorem left_whole (settings : Settings) {text : List Char} (hb : isBlankText text = false) :
    (outcome (whole settings text) (.start text)).2.left ≤
      (text.dropWhile Text.isBlank).length := by
  have hcall := left_call_expression settings (.start text)
  rw [whole_of_not_blank hb, outcome_bind]
  cases hout : outcome (call settings (callsFor settings) .expression) (.start text) with
  | mk r t =>
    rw [hout] at hcall
    cases r with
    | error e => exact hcall
    | ok v => exact Nat.le_trans (left_finish text v t) hcall

theorem text_whole {text : List Char} (hb : isBlankText text = false) :
    (outcome (whole settings text) (.start text)).2.scanner.text = text := by
  have hcall := (foresees_call (n := 0) (z := []) settings (callsFor settings)
    .expression (.start text)).text
  rw [whole_of_not_blank hb, outcome_bind]
  cases hout : outcome (call settings (callsFor settings) .expression) (.start text) with
  | mk r t =>
    rw [hout] at hcall
    cases r with
    | error e => exact hcall
    | ok v =>
      show (outcome (finish text v) t).2.scanner.text = text
      rw [scanner_finish, Scanner.text_skipBlanks]
      exact hcall

end Evaluation

/-- A text is not blank if the first character of it that is not is before the last `n`. -/
theorem not_blank_graft {n : Nat} {text rest : List Char}
    (h : n < (text.dropWhile Text.isBlank).length) : isBlankText (graft n rest text) = false := by
  rw [← Bool.not_eq_true]
  intro hblank
  have htake : ∀ c ∈ text.take (text.length - n), Text.isBlank c = true := fun c hc =>
    List.all_eq_true.1 hblank c (List.mem_append_left _ hc)
  have hdrop : text.dropWhile Text.isBlank =
      (text.drop (text.length - n)).dropWhile Text.isBlank :=
    (congrArg _ (List.take_append_drop (text.length - n) text).symm).trans
      (List.dropWhile_append_of_pos htake)
  have hle := (List.dropWhile_suffix (l := text.drop (text.length - n)) Text.isBlank).length_le
  rw [hdrop] at h
  rw [List.length_drop] at hle
  omega

/-- **What comes after the next character has no part in a fault.** -/
theorem fault_of_lookahead {settings : Settings} {text : String} {f : Fault}
    (h : evaluate settings text = .error (.fault f)) (hf : f.kind ≠ .emptyInput)
    (hq : (runText settings text).final.scanner.position < text.toList.length)
    (rest : List Char) :
    evaluate settings (String.ofList
      (text.toList.take ((runText settings text).final.scanner.position + 1) ++ rest)) =
        .error (.fault f) := by
  have hb : isBlankText text.toList = false := by
    rcases fault_cases h with ⟨-, rfl⟩ | ⟨hb, -⟩
    · exact absurd rfl hf
    · exact hb
  have hresult : (outcome (whole settings text.toList) (.start text.toList)).1 =
      .error (.fault f) := h
  have hfinal : (runText settings text).final =
      (outcome (whole settings text.toList) (.start text.toList)).2 := rfl
  have hleft := left_whole settings hb
  have hlength := position_add_left (runText settings text).final
  rw [hfinal, text_whole hb] at hlength
  rw [hfinal] at hq ⊢
  generalize hend : outcome (whole settings text.toList) (.start text.toList) = out at *
  generalize hn : text.toList.length - (out.2.scanner.position + 1) = n
  have hmore : n < out.2.left := by omega
  have hgraft : text.toList.take (out.2.scanner.position + 1) ++ rest =
      graft n rest text.toList := by
    unfold graft
    rw [show text.toList.length - n = out.2.scanner.position + 1 by omega]
  have hb' : isBlankText (graft n rest text.toList) = false :=
    not_blank_graft (Nat.lt_of_lt_of_le hmore hleft)
  rw [hgraft]
  unfold evaluate runText
  rw [String.toList_ofList, whole_of_not_blank hb']
  rw [whole_of_not_blank hb] at hend
  rw [← hend] at hresult hmore
  exact outcome_graft hresult hmore

/-- The scanner stands after the group when the quotient is found at fault, so the groups that the
other text opens there are never come to. -/
theorem fault_before_open_groups :
    evaluate {} "2/(1-1)+13" =
        .error (.fault { kind := .divisionByZero, position := some 1 }) ∧
      (runText {} "2/(1-1)+13").final.scanner.position = 7 ∧
      evaluate {} "2/(1-1)+((4" =
        .error (.fault { kind := .divisionByZero, position := some 1 }) := by
  have h : evaluate {} "2/(1-1)+13" =
      .error (.fault { kind := .divisionByZero, position := some 1 }) := by
    rw [evaluate_eq_readText {} rfl]
    rfl
  have hq : (runText {} "2/(1-1)+13").final.scanner.position = 7 := by decide +kernel
  refine ⟨h, hq, ?_⟩
  have hlater := fault_of_lookahead h nofun (by rw [hq]; decide) "((4".toList
  rw [hq] at hlater
  exact hlater

end BaseThree
