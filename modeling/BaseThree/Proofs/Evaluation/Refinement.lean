import BaseThree.Grammar
import BaseThree.Proofs.Evaluation.Relation

/-! Checking values and keeping them.

Two runs of one text: the first checks every value against a range, the second lets all of
them pass and keeps them. They go in step as long as the values kept are in range; at the
first that is not, the first run overflows (`refines_whole`). -/
namespace BaseThree

def Overflows {α : Type} (r : Except Evaluation.Failure α) : Prop :=
  ∃ f, r = .error (.fault f) ∧ f.kind = .overflow

namespace Evaluation
variable {α β : Type}

/-- At the same place, as deep in groups. -/
structure State.Agrees (s t : State) : Prop where
  scanner : s.scanner = t.scanner
  depth : s.depth = t.depth

theorem State.Agrees.refl (s : State) : s.Agrees s := ⟨rfl, rfl⟩

theorem outcome_bind (m : Eval α) (f : α → Eval β) (s : State) :
    outcome (m >>= f) s = match outcome m s with
      | (.ok a, t) => outcome (f a) t
      | (.error e, t) => (.error e, t) := by
  simp only [outcome, run_bind]
  cases m s <;> rfl

/-- `m'` keeps its values. If those it adds are in range, `m` ends as it does; if not, `m`
overflows. -/
def Refines (settings : Settings) (m m' : Eval α) : Prop :=
  ∀ s t kept, s.Agrees t → t.trace = some kept →
    ∃ new, (outcome m' t).2.trace = some (new ++ kept) ∧
      if new.all settings.inRange = true then
        (outcome m s).1 = (outcome m' t).1 ∧ (outcome m s).2.Agrees (outcome m' t).2
      else Overflows (outcome m s).1

variable {settings : Settings}

/-- What neither keeps values nor looks at those kept. -/
theorem refines_of_blind {m : Eval α}
    (h : ∀ s t, s.Agrees t → (outcome m t).2.trace = t.trace ∧
      (outcome m s).1 = (outcome m t).1 ∧ (outcome m s).2.Agrees (outcome m t).2) :
    Refines settings m m := by
  intro s t kept hst ht
  obtain ⟨htrace, hsame⟩ := h s t hst
  exact ⟨[], htrace.trans ht, hsame⟩

theorem refines_bind {m m' : Eval α} {f f' : α → Eval β} (hm : Refines settings m m')
    (hf : ∀ a, Refines settings (f a) (f' a)) : Refines settings (m >>= f) (m' >>= f') := by
  intro s t kept hst ht
  obtain ⟨new, hnew, hout⟩ := hm s t kept hst ht
  rw [outcome_bind, outcome_bind]
  generalize outcome m s = out at hout ⊢
  generalize outcome m' t = out' at hnew hout ⊢
  obtain ⟨r, s'⟩ := out
  obtain ⟨r', t'⟩ := out'
  by_cases hall : new.all settings.inRange = true
  · rw [if_pos hall] at hout
    obtain ⟨hr, hst'⟩ := hout
    dsimp only at hr hst' hnew
    subst hr
    cases r with
    | error e =>
      refine ⟨new, hnew, ?_⟩
      rw [if_pos hall]
      exact ⟨rfl, hst'⟩
    | ok a =>
      obtain ⟨later, hlater, hrest⟩ := hf a s' t' (new ++ kept) hst' hnew
      refine ⟨later ++ new, by rw [List.append_assoc]; exact hlater, ?_⟩
      rw [List.all_append, hall, Bool.and_true]
      exact hrest
  · rw [if_neg hall] at hout
    obtain ⟨g, hr, hg⟩ := hout
    dsimp only at hr hnew
    subst hr
    have hoverflows : Overflows (Except.error (Failure.fault g) : Except Failure β) := ⟨g, rfl, hg⟩
    cases r' with
    | error e =>
      refine ⟨new, hnew, ?_⟩
      rw [if_neg hall]
      exact hoverflows
    | ok a =>
      obtain ⟨later, hlater, -⟩ := hf a t' t' (new ++ kept) (.refl t') hnew
      refine ⟨later ++ new, by rw [List.append_assoc]; exact hlater, ?_⟩
      have hnot : ¬(later ++ new).all settings.inRange = true := by
        rw [List.all_append, Bool.and_eq_true]
        exact fun h => hall h.2
      rw [if_neg hnot]
      exact hoverflows

/-! ### Single operations -/

theorem refines_pure (a : α) : Refines settings (pure a) (pure a) :=
  refines_of_blind fun _ _ h => ⟨rfl, rfl, h⟩

theorem refines_throw (e : Failure) : Refines settings (throw e : Eval α) (throw e) :=
  refines_of_blind fun _ _ h => ⟨rfl, rfl, h⟩

theorem refines_fail (f : Fault) : Refines settings (fail f : Eval α) (fail f) :=
  refines_of_blind fun _ _ h => ⟨rfl, rfl, h.scanner, h.depth⟩

theorem refines_note (line : Line) : Refines settings (note line) (note line) :=
  refines_of_blind fun _ _ h => ⟨rfl, rfl, h.scanner, h.depth⟩

theorem refines_scanner : Refines settings scanner scanner :=
  refines_of_blind fun _ _ h => ⟨rfl, congrArg Except.ok h.scanner, h⟩

theorem refines_peek : Refines settings peek peek :=
  refines_of_blind fun _ _ h => ⟨rfl, congrArg (fun k : Scanner => Except.ok k.peek?) h.scanner, h⟩

theorem refines_skipBlanks : Refines settings skipBlanks skipBlanks :=
  refines_of_blind fun _ _ h => ⟨rfl, rfl, congrArg Scanner.skipBlanks h.scanner, h.depth⟩

theorem refines_depth : Refines settings depth depth :=
  refines_of_blind fun _ _ h => ⟨rfl, congrArg Except.ok h.depth, h⟩

theorem refines_enterGroup : Refines settings enterGroup enterGroup :=
  refines_of_blind fun _ _ h => ⟨rfl, rfl, h.scanner, congrArg (· + 1) h.depth⟩

theorem refines_leaveGroup : Refines settings leaveGroup leaveGroup :=
  refines_of_blind fun _ _ h => ⟨rfl, rfl, h.scanner, congrArg (· - 1) h.depth⟩

theorem refines_advance : Refines settings advance advance := by
  refine refines_of_blind fun s t h => ?_
  unfold outcome advance
  rw [h.scanner]
  cases t.scanner.next? with
  | none => exact ⟨rfl, rfl, h⟩
  | some next => exact ⟨rfl, rfl, rfl, h.depth⟩

section Rules
variable {free : Settings}

/-- The one operation that tells the two runs apart. -/
theorem refines_checked (hfree : free.overflow = .unbounded) (value : Int) (place : Scanner) :
    Refines settings (checked settings value place) (checked free value place) := by
  intro s t kept hst ht
  have hpass : outcome (checked free value place) t =
      (.ok value, {t with trace := t.trace.map (value :: ·)}) := by
    simp only [outcome, checked, Settings.inRange_of_unbounded hfree, if_true]
  rw [hpass]
  refine ⟨[value], by simp only [ht, Option.map_some]; rfl, ?_⟩
  simp only [List.all_cons, List.all_nil, Bool.and_true]
  by_cases hr : settings.inRange value = true
  · have hpass' : outcome (checked settings value place) s =
        (.ok value, {s with trace := s.trace.map (value :: ·)}) := by
      simp only [outcome, checked, hr, if_true]
    rw [if_pos hr, hpass']
    exact ⟨rfl, hst.scanner, hst.depth⟩
  · rw [if_neg hr]
    refine ⟨faultAt .overflow place none, ?_, rfl⟩
    simp only [outcome, checked, hr]
    rfl

/-! ### What is kept -/

theorem outcome_advance {s : State} {c : Char} {rest : List Char}
    (h : s.scanner.unread = c :: rest) :
    outcome advance s = (.ok c, {s with scanner := ⟨c :: s.scanner.passed, rest⟩}) := by
  simp only [outcome, advance, Scanner.next?, h]

theorem checked_keeps (settings : Settings) (value : Int) (place : Scanner) {s : State}
    {kept : List Int} (ht : s.trace = some kept) :
    (outcome (checked settings value place) s).2.trace = some (value :: kept) := by
  have hmap : s.trace.map (value :: ·) = some (value :: kept) := by
    rw [ht]
    rfl
  unfold outcome checked
  dsimp only
  by_cases hr : settings.inRange value = true
  · rw [if_pos hr]
    exact hmap
  · rw [if_neg hr]
    exact hmap

/-- The value of a numeral is kept after each digit, in range or not. -/
theorem numeralTurn_keeps (place : Scanner) (value : Int) {s : State} {kept : List Int} {d : Digit}
    (hd : s.scanner.peek?.bind Digit.ofChar? = some d) (ht : s.trace = some kept) :
    (outcome (numeralTurn settings place value) s).2.trace =
      some ((Numeral.base * value + d.val) :: kept) := by
  obtain ⟨c, hc, -⟩ := Option.bind_eq_some_iff.1 hd
  obtain ⟨rest, hunread⟩ := List.head?_eq_some_iff.1 hc
  have hpeek : outcome peek s = (.ok s.scanner.peek?, s) := rfl
  have hadvance := outcome_advance hunread
  have hkeeps := checked_keeps settings (Numeral.base * value + d.val) place
    (s := {s with scanner := ⟨c :: s.scanner.passed, rest⟩}) ht
  unfold numeralTurn
  rw [outcome_bind, hpeek]
  dsimp only
  rw [hd]
  dsimp only
  rw [outcome_bind, hadvance]
  dsimp only
  rw [outcome_bind]
  generalize outcome (checked settings _ place) _ = out at hkeeps ⊢
  obtain ⟨r, t⟩ := out
  cases r with
  | ok _ => exact hkeeps
  | error _ => exact hkeeps

/-- So is the result of an operator, if it has one. -/
theorem combine_keeps (op : Operator) (left right : Int) (place : Scanner) {s : State}
    {kept : List Int} (ht : s.trace = some kept) :
    (outcome (combine settings op left right place) s).2.trace =
      some ((op.result? left right).toList ++ kept) := by
  cases op with
  | plus | minus | times => exact checked_keeps settings _ place ht
  | divide =>
    unfold combine Operator.result?
    dsimp only
    by_cases hr : right = 0
    · rw [if_pos hr, if_pos hr]
      exact ht
    · rw [if_neg hr, if_neg hr, quotient_of_ne_zero hr]
      exact checked_keeps settings _ place ht

/-! ### Rules -/

theorem stepwise_refines (hfree : free.overflow = .unbounded)
    (hnesting : settings.nesting = free.nesting) : Stepwise settings free (Refines settings) where
  nesting := hnesting
  pure := refines_pure
  bind := refines_bind
  look rest := refines_bind refines_scanner fun k => rest k k (.refl k)
  peek := refines_peek
  skipBlanks := refines_skipBlanks
  advance := refines_advance
  depth := refines_depth
  enterGroup := refines_enterGroup
  leaveGroup := refines_leaveGroup
  fail _ _ _ := refines_fail _
  checked := refines_checked hfree

theorem refines_call (hfree : free.overflow = .unbounded)
    (hnesting : settings.nesting = free.nesting) (calls : Nat) (r : Rule) :
    Refines settings (call settings calls r) (call free calls r) :=
  related_call ((stepwise_refines hfree hnesting).parametric refines_scanner (refines_throw _)) 0
    (fun _ => refines_throw _) calls r

theorem refines_whole (hfree : free.overflow = .unbounded)
    (hnesting : settings.nesting = free.nesting) (text : List Char) :
    Refines settings (whole settings text) (whole free text) := by
  have hcalls : callsFor settings = callsFor free := by
    unfold callsFor
    rw [hnesting]
  unfold whole wholeWithin
  split
  · exact refines_fail _
  · rw [hcalls]
    refine refines_bind (refines_call hfree hnesting _ .expression) fun value => ?_
    unfold finish
    refine refines_bind refines_skipBlanks fun _ => refines_bind refines_scanner fun place => ?_
    split
    · exact refines_bind (refines_note _) fun _ => refines_pure _
    · exact refines_bind (refines_note _) fun _ => refines_throw _

end Rules

end Evaluation

end BaseThree
