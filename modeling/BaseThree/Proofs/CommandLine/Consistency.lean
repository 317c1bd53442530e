import BaseThree.Proofs.CommandLine.Answer
import BaseThree.Proofs.Expression.Range

/-! What a run leaves, whatever its arguments are.

Reading the arguments ends in one of four ways (`Reads`): it stops over one of them, it comes to
nothing over a width that is blank or too narrow, or it comes to a request. In all but the blank
width the exit status and the two streams tell the same story, and a run that needs no input does
not depend on it (`run_consistent_iff`). -/
namespace BaseThree.CommandLine

/-- The arguments are read as `s`, and all of them have a use. -/
structure Parses (arguments : List String) (s : Intake) : Prop where
  read : ∃ as, Argument.ofTexts arguments = .ok as ∧ Intake.take {} as = .ok s
  used : s.surplus = []

/-- The settings for a width that is wide enough, or for none. -/
inductive Allows : Option Width → Settings → Prop
  | standard : Allows none .standard
  | bounded {n : Int} {settings : Settings} (wide : 32 ≤ n)
    (bounded : Settings.bounded n = .ok settings) : Allows (some (.bits n)) settings

/-- The arguments are read, their width is allowed, and the text that they select is at fault in a
way that calls for this exit status. -/
def FailsWith (arguments : List String) (stdin : String) (status : Nat) : Prop :=
  ∃ s settings f, Parses arguments s ∧ Allows s.maxBits settings ∧
    evaluate settings (s.expression.getD (firstLine stdin)) = .error (.fault f) ∧
    f.kind.exitStatus = status

/-- The status and the streams of a report tell the same story of a run. -/
structure Consistent (arguments : List String) (stdin : String) (r : Report) : Prop where
  status : r.status ∈ [0, 1, 2, 3, 4]
  stdout : r.stdout ≠ "" ↔ r.status = 0
  newline : r.status = 0 → r.stdout.toList.getLast? = some '\n'
  stderr : r.status ≠ 0 → r.stderr ≠ ""
  fails : ∀ status ∈ [1, 3, 4], r.status = status ↔ FailsWith arguments stdin status
  /-- Nothing overflows unless a width was given. -/
  width : r.status = 4 → ∃ s n, Parses arguments s ∧ s.maxBits = some (.bits n) ∧ 32 ≤ n
  /-- Errors of use, help and version do not depend on the input. -/
  still : r.status = 2 ∨ r.stdout = helpText ∨ r.stdout = versionText →
    ∀ other, run arguments other = .ok r

/-! ### Reading the arguments -/

theorem bind_ne_error {ε α β : Type} {m : Except ε α} {f : α → Except ε β} {e : ε}
    (hm : m ≠ .error e) (hf : ∀ a, f a ≠ .error e) : (m >>= f) ≠ .error e := by
  intro h
  rcases error_of_bind_eq_error h with h | ⟨a, -, h⟩
  · exact hm h
  · exact hf a h

namespace Intake

theorem obey_ne_blankWidth (s : Intake) (f : Flag) : s.obey f ≠ .error .blankWidth := by
  cases f <;> simp [obey]

theorem obeyAll_ne_blankWidth (s : Intake) (flags : List Flag) :
    s.obeyAll flags ≠ .error .blankWidth := by
  induction flags generalizing s with
  | nil => simp [obeyAll]
  | cons f flags ih => exact bind_ne_error (obey_ne_blankWidth s f) ih

theorem obeyWith_ne_blankWidth (s : Intake) (f : Flag) (value : String) :
    s.obeyWith f value ≠ .error .blankWidth := by
  unfold obeyWith
  cases Width.read? value <;> simp

theorem obeyAttached_ne_blankWidth (s : Intake) (f : Flag) (short : Bool) (text : List Char) :
    s.obeyAttached f short text ≠ .error .blankWidth := by
  unfold obeyAttached
  by_cases hvalue : f.takesValue = true
  · rw [if_pos hvalue]
    exact obeyWith_ne_blankWidth s f (String.ofList text)
  · rw [if_neg hvalue]
    cases short with
    | false => simp
    | true =>
      rw [if_pos rfl]
      cases letters f text with
      | error e => simp
      | ok flags => exact obeyAll_ne_blankWidth s flags

/-- A blank width is taken like any other. -/
theorem take_ne_blankWidth (s : Intake) (arguments : List Argument) :
    s.take arguments ≠ .error .blankWidth := by
  fun_induction take s arguments with
  | case1 s => simp
  | case9 s f short text rest ih =>
    exact bind_ne_error (obeyAttached_ne_blankWidth s f short text) ih
  | case10 s f _ value rest _ ih => exact bind_ne_error (obeyWith_ne_blankWidth s f value) ih
  | case11 s f _ value rest _ ih => exact bind_ne_error (obey_ne_blankWidth s f) ih
  | case12 s f _ rest _ ih => exact bind_ne_error (obey_ne_blankWidth s f) ih
  | _ => assumption

end Intake

/-- How reading the arguments ends. -/
inductive Reads (arguments : List String) : Except Halt Request → Prop
  /-- Over an argument, or over those without a use. -/
  | stopped {halt : Halt} (unread : ∀ s, ¬Parses arguments s) (halted : halt ≠ .blankWidth) :
    Reads arguments (.error halt)
  | blank {s : Intake} (parses : Parses arguments s) (width : s.maxBits = some .blank) :
    Reads arguments (.error .blankWidth)
  | narrow {s : Intake} {n : Int} (parses : Parses arguments s)
    (width : s.maxBits = some (.bits n)) (small : n < 32) :
    Reads arguments (.error (.usage (.settings (.bits n))))
  | request {s : Intake} {settings : Settings} (parses : Parses arguments s)
    (allows : Allows s.maxBits settings) :
    Reads arguments (.ok ⟨s.expression, settings, s.verbose⟩)

section
variable {arguments : List String} {s s' : Intake}

theorem Parses.eq (h : Parses arguments s) (h' : Parses arguments s') : s = s' := by
  obtain ⟨as, hread, htake⟩ := h.read
  obtain ⟨as', hread', htake'⟩ := h'.read
  cases hread.symm.trans hread'
  exact Except.ok.inj (htake.symm.trans htake')

theorem reads_ofIntake {as : List Argument} (hread : Argument.ofTexts arguments = .ok as)
    (htake : Intake.take {} as = .ok s) : Reads arguments (Request.ofIntake s) := by
  unfold Request.ofIntake
  by_cases hused : s.surplus = []
  · have hparses : Parses arguments s := ⟨⟨as, hread, htake⟩, hused⟩
    rw [if_pos (List.isEmpty_iff.2 hused)]
    cases hwidth : s.maxBits with
    | none => exact .request hparses (hwidth ▸ .standard)
    | some w =>
      cases w with
      | blank => exact .blank hparses hwidth
      | bits n =>
        by_cases hwide : 32 ≤ n
        · obtain ⟨settings, hsettings⟩ := Settings.exists_bounded hwide
          simp only [hsettings]
          exact .request hparses (hwidth ▸ .bounded hwide hsettings)
        · simp only [Settings.bounded_of_lt (Int.not_le.1 hwide)]
          exact .narrow hparses hwidth (Int.not_le.1 hwide)
  · rw [if_neg (by simpa using hused)]
    refine .stopped (fun s' h' => hused ?_) (by simp)
    obtain ⟨as', hread', htake'⟩ := h'.read
    cases hread.symm.trans hread'
    cases htake.symm.trans htake'
    exact h'.used

theorem reads_ofTexts (arguments : List String) :
    Reads arguments (Request.ofTexts arguments) := by
  cases hread : Argument.ofTexts arguments with
  | error e =>
    have hunread (s : Intake) : ¬Parses arguments s := by
      rintro ⟨⟨as, has, -⟩, -⟩
      cases hread.symm.trans has
    simp only [Request.ofTexts, hread]
    exact .stopped hunread (by simp)
  | ok as =>
    cases htake : Intake.take {} as with
    | error halt =>
      have hunread (s : Intake) : ¬Parses arguments s := by
        rintro ⟨⟨as', has', htake'⟩, -⟩
        cases hread.symm.trans has'
        cases htake.symm.trans htake'
      have hhalted : halt ≠ .blankWidth := by
        rintro rfl
        exact Intake.take_ne_blankWidth {} as htake
      simp only [Request.ofTexts, hread, htake]
      exact .stopped hunread hhalted
    | ok s =>
      rw [Request.ofTexts_of_take hread htake]
      exact reads_ofIntake hread htake

/-! ### Streams -/

theorem ne_empty_of_getLast? {t : String} {c : Char} (h : t.toList.getLast? = some c) : t ≠ "" := by
  rintro rfl
  cases h

theorem getLast?_feed (t : String) : (t ++ "\n").toList.getLast? = some '\n' := by
  simp [String.toList_append]

theorem getLast?_helpText : helpText.toList.getLast? = some '\n' := by
  unfold helpText
  rw [String.toList_append, List.getLast?_append]
  rfl

theorem getLast?_versionText : versionText.toList.getLast? = some '\n' := getLast?_feed _

/-- No numeral begins as the text of help or of the version does. -/
theorem head?_numeral (v : Int) :
    (Numeral.text v ++ "\n").toList.head? ≠ helpText.toList.head? ∧
      (Numeral.text v ++ "\n").toList.head? ≠ versionText.toList.head? := by
  have hhelp : helpText.toList.head? = some 'u' := by
    simp only [helpText, usageLine, String.toList_append, List.head?_append]
    rfl
  have hversion : versionText.toList.head? = some 't' := by
    simp only [versionText, programName, String.toList_append, List.head?_append]
    rfl
  obtain ⟨c, hc, hhead⟩ := Numeral.exists_head?_text v
  have hnumeral : (Numeral.text v ++ "\n").toList.head? = some c := by
    rw [String.toList_append, List.head?_append, hhead]
    rfl
  rw [hhelp, hversion, hnumeral]
  constructor
  · rintro ⟨⟩
    exact absurd hc (by decide)
  · rintro ⟨⟩
    exact absurd hc (by decide)

theorem exitStatus_eq_four_iff {k : Fault.Kind} : k.exitStatus = 4 ↔ k = .overflow := by
  cases k <;> decide

/-! ### Reports -/

theorem Allows.eq {w : Option Width} {settings settings' : Settings} (h : Allows w settings)
    (h' : Allows w settings') : settings = settings' := by
  cases h with
  | standard =>
    cases h'
    rfl
  | bounded wide hsettings =>
    cases h' with
    | bounded _ hsettings' => exact Except.ok.inj (hsettings.symm.trans hsettings')

theorem failsWith_iff {settings : Settings} (hparses : Parses arguments s)
    (hallows : Allows s.maxBits settings) {stdin : String} {status : Nat} :
    FailsWith arguments stdin status ↔ ∃ f,
      evaluate settings (s.expression.getD (firstLine stdin)) = .error (.fault f) ∧
        f.kind.exitStatus = status := by
  constructor
  · rintro ⟨s', settings', f, hparses', hallows', hresult⟩
    cases hparses.eq hparses'
    cases hallows.eq hallows'
    exact ⟨f, hresult⟩
  · rintro ⟨f, hresult⟩
    exact ⟨s, settings, f, hparses, hallows, hresult⟩

theorem Halt.exists_report {halt : Halt} (h : halt ≠ .blankWidth) : ∃ r, halt.report = .ok r := by
  cases halt with
  | blankWidth => exact absurd rfl h
  | _ => exact ⟨_, rfl⟩

/-- A text is shown in place of a value. -/
theorem consistent_of_text {t stdin : String} (ht : t.toList.getLast? = some '\n')
    (hrun : ∀ other, run arguments other = .ok { status := 0, stdout := t, stderr := "" })
    (hfails : ∀ status, ¬FailsWith arguments stdin status) :
    Consistent arguments stdin { status := 0, stdout := t, stderr := "" } where
  status := by simp
  stdout := iff_of_true (ne_empty_of_getLast? ht) rfl
  newline _ := ht
  stderr h := absurd rfl h
  fails := by simp [hfails]
  width := by simp
  still _ := hrun

theorem consistent_of_halt {halt : Halt} {r : Report} {stdin : String}
    (hrequest : Request.ofTexts arguments = .error halt) (hreport : halt.report = .ok r)
    (hfails : ∀ status, ¬FailsWith arguments stdin status) : Consistent arguments stdin r := by
  have hrun (other : String) : run arguments other = .ok r := by
    unfold run
    rw [hrequest]
    exact hreport
  cases halt with
  | help =>
    cases hreport
    exact consistent_of_text getLast?_helpText hrun hfails
  | version =>
    cases hreport
    exact consistent_of_text getLast?_versionText hrun hfails
  | usage e =>
    cases hreport
    exact
      { status := by simp
        stdout := by simp
        newline := by simp
        stderr := fun _ => ne_empty_of_getLast? (getLast?_feed _)
        fails := by simp [hfails]
        width := by simp
        still := fun _ => hrun }
  | blankWidth => cases hreport

section Request
variable {settings : Settings} {stdin : String}

theorem consistent_of_value {v : Int} (hparses : Parses arguments s)
    (hallows : Allows s.maxBits settings)
    (hvalue : evaluate settings (s.expression.getD (firstLine stdin)) = .ok v) (stderr : String)
    (unwritten : Nat) :
    Consistent arguments stdin ⟨0, Numeral.text v ++ "\n", stderr, unwritten⟩ := by
  obtain ⟨hhelp, hversion⟩ := head?_numeral v
  exact
    { status := by simp
      stdout := iff_of_true (ne_empty_of_getLast? (getLast?_feed _)) rfl
      newline := fun _ => getLast?_feed _
      stderr := fun h => absurd rfl h
      fails := by simp [failsWith_iff hparses hallows, hvalue]
      width := by simp
      still := by
        rintro (h | h | h)
        · cases h
        · exact absurd (congrArg (fun t => t.toList.head?) h) hhelp
        · exact absurd (congrArg (fun t => t.toList.head?) h) hversion }

/-- Without a width the range is unbounded. -/
theorem Allows.exists_width (hallows : Allows s.maxBits settings)
    (hbounded : settings.overflow ≠ .unbounded) : ∃ n, s.maxBits = some (.bits n) ∧ 32 ≤ n := by
  generalize s.maxBits = width at hallows
  cases hallows with
  | standard => exact absurd rfl hbounded
  | bounded wide _ => exact ⟨_, rfl, wide⟩

theorem consistent_of_fault {f : Fault} (hparses : Parses arguments s)
    (hallows : Allows s.maxBits settings)
    (hfault : evaluate settings (s.expression.getD (firstLine stdin)) = .error (.fault f))
    (log : String) :
    Consistent arguments stdin
      { status := f.kind.exitStatus
        stdout := ""
        stderr := log ++ ("error: " ++ f.message ++ "\n") } := by
  have hstatus := exitStatus_mem f.kind
  have hzero : f.kind.exitStatus ≠ 0 := fun h => absurd (h ▸ hstatus) (by decide)
  have htwo : f.kind.exitStatus ≠ 2 := fun h => absurd (h ▸ hstatus) (by decide)
  have hmem : ∀ k ∈ [1, 3, 4], k ∈ [0, 1, 2, 3, 4] := by decide
  exact
    { status := hmem _ hstatus
      stdout := iff_of_false (fun h => h rfl) hzero
      newline := fun h => absurd h hzero
      stderr := fun _ => by
        rw [← String.append_assoc]
        exact ne_empty_of_getLast? (getLast?_feed _)
      fails := fun status _ => by simp [failsWith_iff hparses hallows, hfault]
      width := fun hfour => by
        have hbounded : settings.overflow ≠ .unbounded := fun hfree =>
          kind_of_unbounded hfree hfault (exitStatus_eq_four_iff.1 hfour)
        obtain ⟨n, hn, hwide⟩ := hallows.exists_width hbounded
        exact ⟨s, n, hparses, hn, hwide⟩
      still := by
        rintro (h | h | h)
        · exact absurd h htwo
        · exact absurd h.symm (ne_empty_of_getLast? getLast?_helpText)
        · exact absurd h.symm (ne_empty_of_getLast? getLast?_versionText) }

theorem consistent_report (hparses : Parses arguments s) (hallows : Allows s.maxBits settings) :
    Consistent arguments stdin
      (report settings s.verbose (s.expression.getD (firstLine stdin))) := by
  have hsafe := safe_evaluate settings (s.expression.getD (firstLine stdin))
  obtain ⟨line, hlog, htells⟩ :=
    Evaluation.tells_evaluation settings (s.expression.getD (firstLine stdin))
  cases hresult : evaluate settings (s.expression.getD (firstLine stdin)) with
  | ok v =>
    rw [report_of_ok hresult hlog]
    exact consistent_of_value hparses hallows hresult _ _
  | error e =>
    rw [hresult] at hsafe htells
    cases hsafe with
    | fault f =>
      obtain ⟨t, rfl⟩ := htells.exists_text
      rw [report_of_fault hresult hlog]
      exact consistent_of_fault hparses hallows hresult _

end Request

/-! ### A blank width -/

theorem ofTexts_blank (rest : List String) :
    Argument.ofTexts ("--max-bits=--" :: rest) =
      (Argument.ofTexts rest).map (.flag .maxBits false (some ['-', '-']) :: ·) :=
  ofTexts_cons (by decide) (Argument.ofText_joined ['-', '-']) rest

theorem take_blank (s : Intake) (rest : List Argument) :
    s.take (.flag .maxBits false (some ['-', '-']) :: rest) =
      Intake.take {s with maxBits := some .blank} rest := by
  have hvalue : Flag.maxBits.takesValue = true := rfl
  have hread : Width.read? (String.ofList ['-', '-']) = some .blank := if_pos (by decide)
  have hobey : s.obeyAttached .maxBits false ['-', '-'] = .ok {s with maxBits := some .blank} := by
    unfold Intake.obeyAttached Intake.obeyWith
    rw [if_pos hvalue, hread]
  rw [Intake.take, hobey, ok_bind]

/-- Options after a blank width: if one of them has a width, the last of these counts. -/
theorem maxBits_after_blank {groups : List OptionGroup}
    (h : Parses ("--max-bits=--" :: words groups) s) :
    s.maxBits = ((lastWidth groups).map .bits).or (some .blank) := by
  have hwords := ofTexts_words groups []
  rw [List.append_nil] at hwords
  obtain ⟨as, hread, htake⟩ := h.read
  rw [ofTexts_blank, hwords] at hread
  cases hread
  dsimp only at htake
  rw [List.append_nil, take_blank, Intake.take_all] at htake
  unfold Intake.heedAll at htake
  cases hlong : longWidth? groups with
  | some d =>
    rw [hlong] at htake
    cases htake
  | none =>
    rw [hlong] at htake
    cases htake
    rfl

/-- **The status and the streams of a run tell the same story, unless its width is blank.** -/
theorem run_consistent_iff (arguments : List String) (stdin : String) :
    (∃ r, run arguments stdin = .ok r ∧ Consistent arguments stdin r) ↔
      ∀ s, Parses arguments s → s.maxBits ≠ some .blank := by
  have hreads := reads_ofTexts arguments
  unfold run
  cases hrequest : Request.ofTexts arguments with
  | ok request =>
    rw [hrequest] at hreads
    cases hreads with
    | @request s settings hparses hallows =>
      refine iff_of_true ⟨_, rfl, consistent_report hparses hallows⟩ fun s' h' hblank => ?_
      cases hparses.eq h'
      rw [hblank] at hallows
      cases hallows
  | error halt =>
    rw [hrequest] at hreads
    cases hreads with
    | stopped hunread hhalted =>
      obtain ⟨r, hreport⟩ := Halt.exists_report hhalted
      have hfails (status : Nat) : ¬FailsWith arguments stdin status := by
        rintro ⟨s, -, -, hparses, -⟩
        exact hunread s hparses
      exact iff_of_true ⟨r, hreport, consistent_of_halt hrequest hreport hfails⟩
        fun s hparses => absurd hparses (hunread s)
    | @narrow s n hparses hwidth hsmall =>
      have hfails (status : Nat) : ¬FailsWith arguments stdin status := by
        rintro ⟨s', settings, f, hparses', hallows, -⟩
        cases hparses.eq hparses'
        rw [hwidth] at hallows
        cases hallows with
        | bounded wide _ => omega
      refine iff_of_true ⟨_, rfl, consistent_of_halt hrequest rfl hfails⟩ fun s' h' hblank => ?_
      cases hparses.eq h'
      cases hwidth.symm.trans hblank
    | blank hparses hwidth =>
      refine iff_of_false ?_ fun hnot => hnot _ hparses hwidth
      rintro ⟨r, hrun, -⟩
      cases hrun

/-- A later width replaces the blank one. -/
theorem run_consistent_after_blank :
    ∃ r, run ["--max-bits=--", "--max-bits=32"] "2/0" = .ok r ∧
      Consistent ["--max-bits=--", "--max-bits=32"] "2/0" r := by
  refine (run_consistent_iff _ "2/0").2 fun s hparses hblank => ?_
  have hgroups : Parses ("--max-bits=--" ::
      words [.maxBits true ⟨.absent, ['3', '2'], by simp, by simp [Char.isDigit]⟩]) s := hparses
  cases (maxBits_after_blank hgroups).symm.trans hblank

/-- The width is blank, and there is no report. -/
theorem no_report_of_blank_width :
    ¬∃ r, run ["--max-bits=--", "1"] "" = .ok r ∧ Consistent ["--max-bits=--", "1"] "" r := by
  have hread : Argument.ofTexts ["--max-bits=--", "1"] =
      .ok [.flag .maxBits false (some ['-', '-']), .plain "1"] := by
    rw [ofTexts_blank, ofTexts_cons (by decide) (Argument.ofText_plain (by decide)) []]
    rfl
  have htake : Intake.take {} [.flag .maxBits false (some ['-', '-']), .plain "1"] =
      .ok {expression := some "1", maxBits := some .blank} := by
    rw [take_blank]
    rfl
  have hrun : run ["--max-bits=--", "1"] "" = .error .blankWidth := by
    unfold run
    rw [Request.ofTexts_of_take hread htake]
    rfl
  rintro ⟨r, hreport, -⟩
  cases hrun.symm.trans hreport

end

end BaseThree.CommandLine
