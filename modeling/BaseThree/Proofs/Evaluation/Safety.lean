import BaseThree.Proofs.Session

/-! What evaluations never do.

Each operation that can fail has its guard somewhere before it: a character is only taken after
it has been looked at, a divisor only used once it has been compared with zero, and a digit only
counted if it has been found among the digits. No rule catches a failure, so a guard that was
missing would show in how the rule ends. `value_or_fault`: in whatever state it begins, a rule
ends with a value in range or with a fault, and so does every text. -/
namespace BaseThree
open Evaluation

/-- A value in range, or a fault; not the end of the text, not a zero divisor, and neither calls
nor turns used up. -/
inductive Safe (settings : Settings) : Except Failure Int → Prop
  | value (v : Int) (inRange : settings.overflow = .error →
      settings.minValue ≤ v ∧ v ≤ settings.maxValue) : Safe settings (.ok v)
  | fault (f : Fault) : Safe settings (.error (.fault f))

variable {settings : Settings}

theorem Safe.ne_callDepth {result : Except Failure Int} (h : Safe settings result) :
    result ≠ .error .callDepth := by
  rintro rfl
  cases h

theorem Safe.ne_noProgress {result : Except Failure Int} (h : Safe settings result) :
    result ≠ .error .noProgress := by
  rintro rfl
  cases h

theorem safe_of_ends {m : Eval Int} {s : State} {Q : Int → State → Prop}
    {E : Fault → State → Prop} (h : Ends m s Q E)
    (hQ : ∀ v t, Q v t → settings.inRange v = true) : Safe settings (outcome m s).1 := by
  have hends : Ends m s (fun v _ => Safe settings (.ok v))
      (fun f _ => Safe settings (.error (.fault f))) :=
    h.mono (fun v t hv => .value v (Settings.inRange_iff.1 (hQ v t hv))) fun f _ _ => .fault f
  exact hends.to_outcome (P := fun result _ => Safe settings result)

theorem safe_rule (r : Rule) {s : State} (hs : s.depth ≤ settings.nesting) :
    Safe settings (outcome (rule settings r) s).1 :=
  safe_of_ends (ends_rule r s hs) fun _ _ h => h.inRange

theorem safe_whole (settings : Settings) (text : List Char) :
    Safe settings (outcome (whole settings text) (.start text)).1 :=
  safe_of_ends (ends_wholeWithin (Nat.le_refl _) text) fun _ _ h => h

theorem safe_evaluate (settings : Settings) (text : String) :
    Safe settings (evaluate settings text) := safe_whole settings text.toList

/-- A character is a digit if it is among the digits, and then the digit says where. -/
theorem Digit.ofChar?_eq_some_iff_getElem? {c : Char} {d : Digit} :
    Digit.ofChar? c = some d ↔ Numeral.digitChars.toList[d.val]? = some c := by
  have hchars : Numeral.digitChars.toList[d.val]? = some d.toChar := by
    match d with
    | 0 => rfl
    | 1 => rfl
    | 2 => rfl
  rw [hchars, Option.some.injEq]
  constructor
  · exact Digit.toChar_of_ofChar?
  · rintro rfl
    exact d.ofChar?_toChar

/-- **Every text and every rule, from any state within the limit, ends with a value in range or with
a fault.** So it is with the rules of a session, whatever has failed in it before; and what they
take for a digit is one. -/
theorem value_or_fault (settings : Settings) :
    (∀ text, Safe settings (evaluate settings text)) ∧
    (∀ (r : Rule) (s : State), s.depth ≤ settings.nesting →
      Safe settings (outcome (rule settings r) s).1) ∧
    (∀ (text : List Char) (before : List Session.Request) (r : Rule),
      Safe settings (outcome (rule settings r) (Session.final settings (.start text) before)).1) ∧
    ∀ (c : Char) (d : Digit),
      Digit.ofChar? c = some d ↔ Numeral.digitChars.toList[d.val]? = some c := by
  refine ⟨safe_evaluate settings, fun r _ hs => safe_rule r hs, fun text before r => ?_,
    fun _ _ => Digit.ofChar?_eq_some_iff_getElem?⟩
  exact safe_rule r ((Session.sound_start settings text).final before).depth_le

/-- At the end of a text, with both groups open that the limit allows, an operand is asked for. -/
theorem value_or_fault_at_end :
    2 ≤ 2 ∧ Safe {overflow := .error, bits := 32, nesting := 2}
      (outcome (rule {overflow := .error, bits := 32, nesting := 2} .factor)
        {scanner := ⟨"/1((".toList, []⟩, depth := 2}).1 :=
  ⟨by decide, (value_or_fault {overflow := .error, bits := 32, nesting := 2}).2.1 .factor
    {scanner := ⟨"/1((".toList, []⟩, depth := 2} (by decide)⟩

end BaseThree
