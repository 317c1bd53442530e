import BaseThree.Proofs.CommandLine.Answer

/-! What is to be read of an evaluation.

Each evaluation logs one line, and the command line shows it, if it is wanted, with what else it
has to say. Whatever the text, there is nothing in the log, nor in what is shown of it, that cannot
be printed (`evaluation_logs_one_line`). The line of a value with more digits than an integer is
written with cannot be read at all. -/
namespace BaseThree.CommandLine
open Evaluation

theorem printable_of_mem_written {text t : String} {result : Except Failure Int} {line : Line}
    (h : Tells text result line) (ht : t ∈ written [line]) : Text.Printable t := by
  obtain ⟨other, hline, htext⟩ := List.mem_filterMap.1 ht
  cases List.mem_singleton.1 hline
  cases line with
  | unwritten e => cases htext
  | text t' =>
    cases htext
    exact h.printable

/-- What the command line writes to its second stream. -/
theorem exists_shown (settings : Settings) (verbose : Bool) (text : String) :
    ∃ texts, (report settings verbose text).stderr = lines texts ∧
      ∀ t ∈ texts, Text.Printable t := by
  have hsafe := safe_evaluate settings text
  obtain ⟨line, hlog, htells⟩ := tells_evaluation settings text
  cases hresult : evaluate settings text with
  | ok v =>
    rw [report_of_ok hresult hlog]
    cases verbose with
    | false => exact ⟨[], rfl, by simp⟩
    | true => exact ⟨written [line], rfl, fun t => printable_of_mem_written htells⟩
  | error e =>
    rw [hresult] at hsafe htells
    cases hsafe with
    | fault f =>
      have herror : Text.Printable ("error: " ++ f.message) :=
        .append (by decide) (Fault.printable_message f)
      have hstatus : Text.Printable
          ("Exit status " ++ toString f.kind.exitStatus ++ " for " ++ f.kind.name) :=
        .append (.append (.append (by decide) (Fault.printable_toString_int f.kind.exitStatus))
          (by decide)) (Fault.printable_kind f.kind f.kind.mem_all).2
      obtain ⟨t, rfl⟩ := htells.exists_text
      rw [report_of_fault hresult hlog, ← lines_singleton]
      cases verbose with
      | false => exact ⟨["error: " ++ f.message], String.empty_append .., by simpa using herror⟩
      | true =>
        refine ⟨_, (lines_append _ _).symm, ?_⟩
        simpa using ⟨htells.printable, hstatus, herror⟩

/-- **Each evaluation logs one line, and the line tells how it has ended.** There is no text to the
line of a value that is too long. Neither in a text of the log nor in what the command line shows
is there a character that cannot be printed. -/
theorem evaluation_logs_one_line (settings : Settings) (text : String) (verbose : Bool) :
    ∃ line, evaluationLog settings text = [line] ∧ Tells text (evaluate settings text) line ∧
      (∀ f, evaluate settings text = .error (.fault f) → Text.Printable f.message) ∧
      ∃ shown, (report settings verbose text).stderr = lines shown ∧
        ∀ t ∈ written [line] ++ shown, Text.Printable t ∧ ∀ c ∈ t.toList, ¬Text.IsControl c := by
  obtain ⟨line, hlog, htells⟩ := tells_evaluation settings text
  obtain ⟨shown, hshown, hprintable⟩ := exists_shown settings verbose text
  refine ⟨line, hlog, htells, fun f _ => Fault.printable_message f, shown, hshown, ?_⟩
  intro t ht
  have hall : Text.Printable t :=
    (List.mem_append.1 ht).elim (printable_of_mem_written htells) (hprintable t)
  exact ⟨hall, fun c hc => Text.not_isControl_of_isPrintable (hall c hc)⟩

/-- A line feed in what is left of a text is written as two characters. -/
theorem trailing_line_feed_logged :
    ∃ line, evaluationLog {} "1\n)\n" = [line] ∧
      Tells "1\n)\n" (evaluate {} "1\n)\n") line ∧
      line = .text ("Evaluation failed: trailing content \x27)\x27 at position 2 " ++
        "(unparsed \x27)\\n\x27)") := by
  obtain ⟨line, hlog, htells, -⟩ := evaluation_logs_one_line {} "1\n)\n" true
  have hline : evaluationLog {} "1\n)\n" =
      [.text ("Evaluation failed: trailing content \x27)\x27 at position 2 " ++
        "(unparsed \x27)\\n\x27)")] := by
    decide +kernel
  exact ⟨line, hlog, htells, List.singleton_inj.1 (hlog.symm.trans hline)⟩

/-! ### A value that is too long -/

/-- A numeral of nothing but twos is one less than a power of the base. -/
theorem ofDigits_twos (n : Nat) : Numeral.ofDigits (List.replicate n 2) + 1 = 3 ^ n := by
  induction n with
  | zero => rfl
  | succ n ih =>
    rw [List.replicate_succ', Numeral.ofDigits_concat, Nat.pow_succ, ← ih, Numeral.base]
    show 3 * _ + 2 + 1 = _
    omega

/-- Twenty-one digits in base three say more than ten in decimal. -/
theorem pow_ten_lt {k n : Nat} (h : 21 * k < n) : 10 ^ (10 * k) < 3 ^ n := calc
  10 ^ (10 * k) = (10 ^ 10) ^ k := Nat.pow_mul ..
  _ ≤ (3 ^ 21) ^ k := Nat.pow_le_pow_left (by decide) k
  _ = 3 ^ (21 * k) := (Nat.pow_mul ..).symm
  _ < 3 ^ n := Nat.pow_lt_pow_right (by decide) h

theorem digitLimit_le_twos {n : Nat} (h : 21 * 430 < n) :
    10 ^ Text.digitLimit ≤ (Numeral.ofDigits (List.replicate n 2) : Int).natAbs := by
  have hlimit : Text.digitLimit = 10 * 430 := rfl
  rw [Int.natAbs_natCast, hlimit, ← Nat.lt_succ_iff, Nat.succ_eq_add_one, ofDigits_twos]
  exact pow_ten_lt h

theorem evaluate_twos {n : Nat} (h : n ≠ 0) :
    evaluate .standard (String.ofList (List.replicate n '2')) =
      .ok (Numeral.ofDigits (List.replicate n 2) : Int) := by
  have hdigits : List.replicate n (2 : Digit) ≠ [] := mt (List.replicate_eq_nil_iff _).1 h
  have htext : (String.ofList (List.replicate n '2')).toList =
      (List.replicate n (2 : Digit)).map Digit.toChar := by
    rw [String.toList_ofList, List.map_replicate]
    rfl
  rw [evaluate_digits hdigits htext,
    Grammar.Tree.ranged_of_inRange (Settings.inRange_of_unbounded rfl _)]
  rfl

theorem evaluationLog_of_long {settings : Settings} {text : String} {v : Int}
    (h : evaluate settings text = .ok v) (long : 10 ^ Text.digitLimit ≤ v.natAbs) :
    evaluationLog settings text = [.unwritten {}] := by
  obtain ⟨line, hlog, htells⟩ := tells_evaluation settings text
  rw [h] at htells
  cases htells with
  | value short => exact absurd long (Nat.not_le.2 short)
  | longValue long => exact hlog

/-- A text of a value with more than four thousand and three hundred decimal digits. -/
def longText : String := String.ofList (List.replicate 9100 '2')

/-- There is a value, and no line with it: the log has nothing that can be read. -/
theorem no_line_for_long_value :
    ∃ v, evaluate .standard longText = .ok v ∧
      written (evaluationLog .standard longText) = [] ∧
      evaluationLog .standard longText ≠
        [.text ("Evaluated " ++ Text.quote longText ++ " -> " ++ toString v)] := by
  have hvalue : evaluate .standard longText = .ok _ := evaluate_twos (by decide)
  have hlog := evaluationLog_of_long hvalue (digitLimit_le_twos (by decide))
  refine ⟨_, hvalue, ?_, ?_⟩
  · rw [hlog]
    rfl
  · rw [hlog]
    intro hsame
    cases List.singleton_inj.1 hsame

end BaseThree.CommandLine
