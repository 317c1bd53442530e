import BaseThree.Proofs.Evaluation.Safety
import BaseThree.Proofs.Expression.FirstFault
import BaseThree.Proofs.Fault

/-! What evaluations log.

Rules log nothing as long as they go on, and one line as they fail (`logs_call`): it names the
fault, which is never that of trailing content. That fault, and a value, are what an evaluation
ends in when the rules have come to the end of the expression, and then it logs the line itself. So
there is one line for each text, and it tells the result (`tells_evaluation`), except that there is
nothing to be read of a value that is too long to be written. -/
namespace BaseThree.Evaluation
variable {α β : Type}

/-! ### Rules -/

/-- How a log changes with a result: only for a fault, and then by the line for this fault. -/
def Logged (before after : List Line) : Except Failure α → Prop
  | .error (.fault f) => f.kind ≠ .trailingContent ∧ after = before ++ [.text (failureLine f)]
  | _ => after = before

/-- From every state, `m` logs a line if it comes to a fault, and else nothing. -/
def Logs (m : Eval α) : Prop := ∀ s, Logged s.log (outcome m s).2.log (outcome m s).1

theorem logs_fail {f : Fault} (hf : f.kind ≠ .trailingContent) : Logs (fail f : Eval α) :=
  fun _ => ⟨hf, rfl⟩

theorem logs_bind {m : Eval α} {f : α → Eval β} (hm : Logs m) (hf : ∀ a, Logs (f a)) :
    Logs (m >>= f) := by
  intro s
  have hlog := hm s
  rw [outcome_bind]
  cases hout : outcome m s with
  | mk r t =>
    rw [hout] at hlog
    cases r with
    | ok a =>
      have hsame : t.log = s.log := hlog
      rw [← hsame]
      exact hf a t
    | error e => cases e <;> exact hlog

theorem logs_advance : Logs advance := by
  intro s
  cases hn : s.scanner.next? with
  | none => simp [Logged, outcome, advance, hn]
  | some next => simp [Logged, outcome, advance, hn]

theorem logs_checked (settings : Settings) (value : Int) (place : Scanner) :
    Logs (checked settings value place) := by
  intro s
  by_cases hr : settings.inRange value
  · simp [Logged, outcome, checked, hr]
  · simp [Logged, outcome, checked, hr, run_fail, faultAt]

variable (settings : Settings)

theorem stepwise_logs : Stepwise settings settings (fun m _ => Logs m) where
  nesting := rfl
  pure _ _ := rfl
  bind := logs_bind
  look rest := logs_bind (fun _ => rfl) fun k => rest k k (.refl k)
  peek _ := rfl
  skipBlanks _ := rfl
  advance := logs_advance
  depth _ := rfl
  enterGroup _ := rfl
  leaveGroup _ := rfl
  fail inside _ _ := logs_fail inside
  checked := logs_checked settings

theorem logs_call (calls : Nat) (r : Rule) : Logs (call settings calls r) :=
  related_call ((stepwise_logs settings).parametric (fun _ => rfl) fun _ => rfl) 0
    (fun _ _ => rfl) calls r

/-! ### Evaluations -/

/-- The line tells how the evaluation of a text has ended. -/
inductive Tells (text : String) : Except Failure Int → Line → Prop
  | value {v : Int} (short : v.natAbs < 10 ^ Text.digitLimit) :
    Tells text (.ok v) (.text ("Evaluated " ++ Text.quote text ++ " -> " ++ toString v))
  /-- A value that is too long to be written. -/
  | longValue {v : Int} (long : 10 ^ Text.digitLimit ≤ v.natAbs) :
    Tells text (.ok v) (.unwritten {})
  | fault {f : Fault} (kind : f.kind ≠ .trailingContent) :
    Tells text (.error (.fault f)) (.text ("Evaluation failed: " ++ f.message))
  /-- What is left of the text is shown with the fault. -/
  | trailing {f : Fault} {p : Nat} (kind : f.kind = .trailingContent)
    (position : f.position = some (p : Int)) :
    Tells text (.error (.fault f))
      (.text ("Evaluation failed: " ++ f.message ++ " (unparsed " ++
        Text.quote (String.ofList (text.toList.drop p)) ++ ")"))

theorem Tells.printable {text line : String} {result : Except Failure Int}
    (h : Tells text result (.text line)) : Text.Printable line := by
  have hfailure (f : Fault) : Text.Printable ("Evaluation failed: " ++ f.message) :=
    .append (by decide) (Fault.printable_message f)
  cases h with
  | @value v short =>
    have htext : Text.Printable ("Evaluated " ++ Text.quote text ++ " -> ") :=
      .append (.append (by decide) (Text.printable_quote text)) (by decide)
    exact htext.append (Fault.printable_toString_int v)
  | fault kind => exact hfailure _
  | trailing kind position =>
    exact .append (.append (.append (hfailure _) (by decide)) (Text.printable_quote _)) (by decide)

theorem Tells.exists_text {text : String} {e : Failure} {line : Line}
    (h : Tells text (.error e) line) : ∃ t, line = .text t := by
  cases h <;> exact ⟨_, rfl⟩

theorem tells_successLine (text : String) (v : Int) :
    Tells text (.ok v) (successLine text.toList v) := by
  unfold successLine
  rw [String.ofList_toList]
  rcases Nat.lt_or_ge v.natAbs (10 ^ Text.digitLimit) with hshort | hlong
  · rw [Text.writeInteger_of_lt hshort]
    exact .value hshort
  · rw [Text.writeInteger_of_le hlong]
    exact .longValue hlong

/-- At the end of an expression one line is logged. -/
theorem tells_finish (text : String) (v : Int) {s : State}
    (htext : s.scanner.text = text.toList) :
    ∃ line, (outcome (finish text.toList v) s).2.log = s.log ++ [line] ∧
      Tells text (outcome (finish text.toList v) s).1 line := by
  rw [outcome_finish]
  cases s.scanner.skipBlanks.peek? with
  | none => exact ⟨_, rfl, tells_successLine text v⟩
  | some c =>
    have hdrop := s.scanner.skipBlanks.drop_position
    rw [Scanner.text_skipBlanks, htext] at hdrop
    refine ⟨_, rfl, ?_⟩
    rw [trailingLine, ← hdrop]
    exact .trailing rfl rfl

/-- **Each evaluation logs one line, which tells how it has ended.** -/
theorem tells_evaluation (settings : Settings) (text : String) :
    ∃ line, evaluationLog settings text = [line] ∧ Tells text (evaluate settings text) line := by
  have hsafe := safe_evaluate settings text
  show ∃ line, (outcome (whole settings text.toList) (.start text.toList)).2.log = [line] ∧
    Tells text (outcome (whole settings text.toList) (.start text.toList)).1 line
  cases hb : isBlankText text.toList with
  | true =>
    unfold whole wholeWithin
    rw [hb]
    exact ⟨_, rfl, .fault (by decide)⟩
  | false =>
    -- The call logs at most one line; only if it logs none does `finish` come to log its own.
    have hlog := logs_call settings (callsFor settings) .expression (.start text.toList)
    have htext := (foresees_call (n := 0) (z := []) settings (callsFor settings) .expression
      (.start text.toList)).text
    have heval : evaluate settings text = (outcome (whole settings text.toList) _).1 := rfl
    rw [whole_of_not_blank hb, outcome_bind] at heval ⊢
    rw [heval] at hsafe
    cases hout : outcome (call settings (callsFor settings) .expression) (.start text.toList) with
    | mk r t =>
      rw [hout] at hlog htext hsafe
      cases r with
      | ok v =>
        obtain ⟨line, hline, htells⟩ := tells_finish text v htext
        have hnone : t.log = [] := hlog
        rw [hnone] at hline
        exact ⟨line, hline, htells⟩
      | error e =>
        cases hsafe with
        | fault f => exact ⟨_, hlog.2, .fault hlog.1⟩

end BaseThree.Evaluation
