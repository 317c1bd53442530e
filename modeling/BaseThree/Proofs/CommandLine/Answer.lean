import BaseThree.Proofs.CommandLine.Line
import BaseThree.Proofs.CommandLine.Options
import BaseThree.Proofs.Evaluation.Log
import BaseThree.Proofs.Expression.Numeral

/-! What the command line answers.

However the options of a command line are ordered, and wherever its expression stands among them,
the run answers for three things: the widths, the wish for the log and the text to evaluate
(`Answers`). Of the widths the last one counts, unless one of them is too long to be read. -/
namespace BaseThree.CommandLine

/-! ### Texts -/

theorem lines_append (texts more : List String) :
    lines (texts ++ more) = lines texts ++ lines more := by
  unfold lines
  rw [List.map_append, String.join_append]

theorem lines_singleton (text : String) : lines [text] = text ++ "\n" := by
  unfold lines
  rw [List.map_cons, List.map_nil, String.join_cons, String.join_nil, String.append_empty]

theorem usageText_bits (n : Int) : usageText (.settings (.bits n)) =
    usageLine ++ programName ++ ": error: " ++ ("int_bits must be at least 32: " ++ toString n) ++
      "\n" := by
  have hleast : "int_bits must be at least " ++ toString Settings.minBits ++ ": " =
      "int_bits must be at least 32: " := by decide
  show usageLine ++ programName ++ ": error: " ++
    ("int_bits must be at least " ++ toString Settings.minBits ++ ": " ++ toString n) ++ "\n" = _
  rw [hleast]

theorem usageText_long (text : String) : usageText (.invalidInteger .maxBits text) =
    usageLine ++ programName ++ ": error: " ++
      ("argument --max-bits: invalid int value: " ++ Text.quote text) ++ "\n" := by
  have habout : "argument " ++ Flag.maxBits.title ++ ": " ++ "invalid int value: " =
      "argument --max-bits: invalid int value: " := by decide
  have hmessage : (UsageError.invalidInteger .maxBits text).message =
      "argument --max-bits: invalid int value: " ++ Text.quote text := by
    rw [← habout, String.append_assoc]
    rfl
  unfold usageText
  rw [hmessage]

theorem exitStatus_mem (k : Fault.Kind) : k.exitStatus ∈ [1, 3, 4] := by
  cases k <;> decide

/-! ### Answers -/

/-- Lines of a log, if they are wanted. -/
def shown (verbose : Bool) (texts : List String) : String := if verbose then lines texts else ""

/-- The settings for a width, or for none. -/
def settingsFor : Option Int → Except Settings.Rejection Settings
  | none => .ok .standard
  | some n => Settings.bounded n

/-- What a run with these groups of options leaves over a text. -/
inductive Answers (groups : List OptionGroup) (text : String) : Report → Prop
  /-- A width is too long to be read, whatever the text. The first such width is named. -/
  | long {d : Text.Decimal} (first : longWidth? groups = some d) :
    Answers groups text
      { status := 2
        stdout := ""
        stderr := usageLine ++ programName ++ ": error: " ++
          ("argument --max-bits: invalid int value: " ++ Text.quote d.text) ++ "\n" }
  /-- The last width is too small, whatever the text. -/
  | narrow {n : Int} (readable : longWidth? groups = none) (given : lastWidth groups = some n)
    (small : n < 32) :
    Answers groups text
      { status := 2
        stdout := ""
        stderr := usageLine ++ programName ++ ": error: " ++
          ("int_bits must be at least 32: " ++ toString n) ++ "\n" }
  | value {settings : Settings} {v : Int} (readable : longWidth? groups = none)
    (allowed : settingsFor (lastWidth groups) = .ok settings)
    (result : evaluate settings text = .ok v) (short : v.natAbs < 10 ^ Text.digitLimit) :
    Answers groups text
      { status := 0
        stdout := Numeral.text v ++ "\n"
        stderr := shown (wantsLog groups)
          ["Evaluated " ++ Text.quote text ++ " -> " ++ toString v] }
  /-- The log lacks the line of a value that is too long to be written. -/
  | longValue {settings : Settings} {v : Int} (readable : longWidth? groups = none)
    (allowed : settingsFor (lastWidth groups) = .ok settings)
    (result : evaluate settings text = .ok v) (long : 10 ^ Text.digitLimit ≤ v.natAbs) :
    Answers groups text
      { status := 0
        stdout := Numeral.text v ++ "\n"
        stderr := ""
        unwritten := if wantsLog groups then 1 else 0 }
  | fault {settings : Settings} {f : Fault} {line : String} (readable : longWidth? groups = none)
    (allowed : settingsFor (lastWidth groups) = .ok settings)
    (result : evaluate settings text = .error (.fault f))
    (logged : Evaluation.Tells text (.error (.fault f)) (.text line))
    (status : f.kind.exitStatus ∈ [1, 3, 4]) :
    Answers groups text
      { status := f.kind.exitStatus
        stdout := ""
        stderr := shown (wantsLog groups)
            [line, "Exit status " ++ toString f.kind.exitStatus ++ " for " ++ f.kind.name] ++
          ("error: " ++ f.message ++ "\n") }

section
variable {settings : Settings} {text line : String} {v : Int}

theorem report_of_ok {logged : Evaluation.Line} (h : evaluate settings text = .ok v)
    (hlog : evaluationLog settings text = [logged]) (verbose : Bool) :
    report settings verbose text =
      { status := 0
        stdout := Numeral.text v ++ "\n"
        stderr := shown verbose (written [logged])
        unwritten := if verbose then countUnwritten [logged] else 0 } := by
  have hresult : (runText settings text).result = .ok v := h
  have hfinal : (runText settings text).final.log = [logged] := hlog
  unfold report
  dsimp only
  rw [hresult, hfinal]
  cases verbose <;> rfl

theorem report_of_value (h : evaluate settings text = .ok v)
    (hlog : evaluationLog settings text = [.text line]) (verbose : Bool) :
    report settings verbose text =
      { status := 0, stdout := Numeral.text v ++ "\n", stderr := shown verbose [line] } := by
  rw [report_of_ok h hlog]
  cases verbose <;> rfl

theorem report_of_longValue (h : evaluate settings text = .ok v)
    (hlog : evaluationLog settings text = [.unwritten {}]) (verbose : Bool) :
    report settings verbose text =
      { status := 0
        stdout := Numeral.text v ++ "\n"
        stderr := ""
        unwritten := if verbose then 1 else 0 } := by
  rw [report_of_ok h hlog]
  cases verbose <;> rfl

theorem report_of_fault {f : Fault} (h : evaluate settings text = .error (.fault f))
    (hlog : evaluationLog settings text = [.text line]) (verbose : Bool) :
    report settings verbose text =
      { status := f.kind.exitStatus
        stdout := ""
        stderr := shown verbose
            [line, "Exit status " ++ toString f.kind.exitStatus ++ " for " ++ f.kind.name] ++
          ("error: " ++ f.message ++ "\n") } := by
  have hresult : (runText settings text).result = .error (.fault f) := h
  have hfinal : (runText settings text).final.log = [.text line] := hlog
  unfold report
  dsimp only
  rw [hresult, hfinal]
  dsimp only
  rw [lines_append, ← lines_singleton]
  cases verbose <;> rfl

end

theorem answers_report {groups : List OptionGroup} {settings : Settings}
    (hreadable : longWidth? groups = none)
    (hs : settingsFor (lastWidth groups) = .ok settings) (text : String) :
    Answers groups text (report settings (wantsLog groups) text) := by
  have hsafe := safe_evaluate settings text
  obtain ⟨line, hlog, htells⟩ := Evaluation.tells_evaluation settings text
  cases hresult : evaluate settings text with
  | ok v =>
    rw [hresult] at htells
    cases htells with
    | value hshort =>
      rw [report_of_value hresult hlog]
      exact .value hreadable hs hresult hshort
    | longValue hlong =>
      rw [report_of_longValue hresult hlog]
      exact .longValue hreadable hs hresult hlong
  | error e =>
    rw [hresult] at hsafe htells
    cases hsafe with
    | fault f =>
      obtain ⟨t, rfl⟩ := htells.exists_text
      rw [report_of_fault hresult hlog]
      exact .fault hreadable hs hresult htells (exitStatus_mem f.kind)

/-- A width that is not allowed is too small, and the request says so. -/
theorem settingsFor_eq_error {width : Option Int} {rejection : Settings.Rejection}
    (h : settingsFor width = .error rejection) :
    ∃ n, width = some n ∧ n < 32 ∧ rejection = .bits n := by
  cases width with
  | none => cases h
  | some n =>
    by_cases hlt : n < 32
    · refine ⟨n, rfl, hlt, ?_⟩
      have hbounded : settingsFor (some n) = .error (.bits n) := Settings.bounded_of_lt hlt
      rw [hbounded] at h
      cases h
      rfl
    · obtain ⟨settings, hsettings⟩ := Settings.exists_bounded (Int.not_lt.1 hlt)
      cases hsettings.symm.trans h

theorem asked_of_long {groups : List OptionGroup} {d : Text.Decimal}
    (h : longWidth? groups = some d) (expression : Option String) :
    Request.asked groups expression = .error (.usage (.invalidInteger .maxBits d.text)) := by
  unfold Request.asked Intake.heedAll
  rw [h]
  rfl

theorem asked_of_readable {groups : List OptionGroup} (h : longWidth? groups = none)
    (expression : Option String) :
    Request.asked groups expression =
      match settingsFor (lastWidth groups) with
      | .ok settings => .ok ⟨expression, settings, wantsLog groups⟩
      | .error rejection => .error (.usage (.settings rejection)) := by
  unfold Request.asked Intake.heedAll
  rw [h, Bool.false_or, Option.or_none]
  unfold settingsFor
  cases lastWidth groups <;> rfl

/-- One report answers all command lines that ask for the same, wherever they find their text. -/
theorem exists_report (groups : List OptionGroup) (text : String) :
    ∃ answer, Answers groups text answer ∧
      ∀ (arguments : List String) (expression : Option String) (stdin : String),
        Request.ofTexts arguments = Request.asked groups expression →
        expression.getD (firstLine stdin) = text → run arguments stdin = .ok answer := by
  cases hlong : longWidth? groups with
  | some d =>
    refine ⟨_, .long hlong, fun arguments expression stdin hrequest htext => ?_⟩
    rw [asked_of_long hlong] at hrequest
    unfold run
    rw [hrequest, ← usageText_long]
    rfl
  | none =>
    cases hwidth : settingsFor (lastWidth groups) with
    | ok settings =>
      refine ⟨report settings (wantsLog groups) text, answers_report hlong hwidth text,
        fun arguments expression stdin hrequest htext => ?_⟩
      rw [asked_of_readable hlong, hwidth] at hrequest
      unfold run
      rw [hrequest, ← htext]
      rfl
    | error rejection =>
      obtain ⟨n, hn, hlt, rfl⟩ := settingsFor_eq_error hwidth
      refine ⟨_, .narrow hlong hn hlt, fun arguments expression stdin hrequest htext => ?_⟩
      rw [asked_of_readable hlong, hwidth] at hrequest
      unfold run
      rw [hrequest, ← usageText_bits]
      rfl

/-! ### Interleaved options -/

/-- **A run answers for its widths, its wish for the log and its text, in whatever order its
arguments stand**; without an expression the text is the first line of the input. -/
theorem run_interleaved (before after : List OptionGroup) (expression : Option String)
    (stdin : String) (h : ∀ text, expression = some text → text.toList.head? ≠ some '-') :
    IsFirstLine stdin.toList (firstLine stdin).toList ∧
    ∃ answer, run (words before ++ expression.toList ++ words after) stdin = .ok answer ∧
      Answers (before ++ after) (expression.getD (firstLine stdin)) answer := by
  obtain ⟨answer, hanswer, hrun⟩ :=
    exists_report (before ++ after) (expression.getD (firstLine stdin))
  refine ⟨firstLine_eq_iff.1 rfl, answer, ?_, hanswer⟩
  exact hrun _ expression stdin (Request.ofTexts_interleaved before after h) rfl

/-- Two widths, of which the second counts, on both sides of a division by zero. -/
theorem run_division_between_widths :
    (∀ text, some "2/(1-1)" = some text → text.toList.head? ≠ some '-') ∧
    ∃ seven forty : Text.Decimal, seven.text = "7" ∧ forty.text = "040" ∧ forty.value = 40 ∧
      ∃ answer, run ["-v", "--max-bits=7", "2/(1-1)", "--max-bits", "040"] "0" = .ok answer ∧
        Answers [.verbose false, .maxBits true seven, .maxBits false forty] "2/(1-1)" answer := by
  have hplain : ∀ text, some "2/(1-1)" = some text → text.toList.head? ≠ some '-' := by
    rintro text ⟨⟩
    decide
  have hrun := (run_interleaved
    [.verbose false, .maxBits true ⟨.absent, ['7'], by simp, by simp [Char.isDigit]⟩]
    [.maxBits false ⟨.absent, ['0', '4', '0'], by simp, by simp [Char.isDigit]⟩]
    (some "2/(1-1)") "0" hplain).2
  exact ⟨hplain, _, _, rfl, rfl, rfl, hrun⟩

/-! ### A width that is too long -/

/-- Sixty-four, with so many zeros in front of it that it is too long. -/
def paddedWidth : Text.Decimal where
  sign := .absent
  digits := List.replicate 4299 '0' ++ ['6', '4']
  digits_ne_nil := List.append_ne_nil_of_right_ne_nil _ (List.cons_ne_nil _ _)
  isDigit_of_mem c hc := by
    rcases List.mem_append.1 hc with hzero | hlast
    · rw [List.eq_of_mem_replicate hzero]
      decide
    · rcases List.mem_pair.1 hlast with rfl | rfl <;> decide

theorem isLong_paddedWidth : paddedWidth.isLong = true := by
  unfold Text.Decimal.isLong paddedWidth
  rw [List.length_append, List.length_replicate]
  rfl

theorem value_paddedWidth : paddedWidth.value = 64 := by
  have hzeros (n : Nat) (rest : List Char) :
      Nat.ofDigitChars 10 (List.replicate n '0' ++ rest) 0 = Nat.ofDigitChars 10 rest 0 := by
    induction n with
    | zero => rfl
    | succ n ih =>
      rw [List.replicate_succ, List.cons_append, Nat.ofDigitChars_cons]
      exact ih
  show ((Nat.ofDigitChars 10 (List.replicate 4299 '0' ++ ['6', '4']) 0 : Nat) : Int) = 64
  rw [hzeros]
  rfl

theorem evaluate_five (settings : Settings) : evaluate settings "12" = .ok 5 := by
  have hrange : settings.inRange 5 = true := by
    have hbits : 31 ≤ settings.bits - 1 := Nat.sub_le_sub_right settings.minBits_le 1
    exact Settings.inRange_of_natAbs_lt
      (Nat.lt_of_lt_of_le (by decide) (Nat.pow_le_pow_right (by decide) hbits))
  have hdigits : evaluate settings "12" =
      (Grammar.Tree.ranged settings 0 5).mapError Evaluation.Failure.fault :=
    evaluate_digits (List.cons_ne_nil 1 [2]) rfl
  rw [hdigits, Grammar.Tree.ranged_of_inRange hrange]
  rfl

/-- Zeros in front of a width change nothing about its value, but they can make it unreadable: with
the settings for the value there is a result, and the run has none. -/
theorem no_result_for_padded_width :
    paddedWidth.text = String.ofList (List.replicate 4299 '0' ++ ['6', '4']) ∧
    paddedWidth.value = 64 ∧
    (∃ settings, Settings.bounded 64 = .ok settings ∧ evaluate settings "12" = .ok 5) ∧
    ∃ answer, run ["--max-bits", paddedWidth.text, "12"] "" = .ok answer ∧
      answer.status = 2 ∧ answer.stdout = "" := by
  have hlong : longWidth? [.maxBits false paddedWidth] = some paddedWidth := by
    rw [Intake.longWidth?_maxBits, isLong_paddedWidth, if_pos rfl]
  have hplain : "12".toList.head? ≠ some '-' := by decide
  obtain ⟨settings, hsettings⟩ := Settings.exists_bounded (n := 64) (by decide)
  obtain ⟨answer, hanswer, hrun⟩ := exists_report [.maxBits false paddedWidth] "12"
  have hwords (d : Text.Decimal) :
      words [.maxBits false d] ++ ["12"] = ["--max-bits", d.text, "12"] := rfl
  have hrequest := Request.ofTexts_options_concat [.maxBits false paddedWidth] hplain
  rw [hwords] at hrequest
  refine ⟨rfl, value_paddedWidth, ⟨settings, hsettings, evaluate_five settings⟩, answer,
    hrun _ (some "12") "" hrequest rfl, ?_⟩
  cases hanswer with
  | long => exact ⟨rfl, rfl⟩
  | narrow readable | value readable | longValue readable | fault readable =>
    cases hlong.symm.trans readable

end BaseThree.CommandLine
