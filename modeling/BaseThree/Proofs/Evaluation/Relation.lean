import BaseThree.Evaluation

/-! Relations between evaluations.

Two evaluations take the rules side by side: under other settings, with more calls, or over another
text. A relation between the two is `Stepwise` if it holds of the operations that rules are made
of, and `Parametric` if it holds of their loops as well. Such a relation holds of all rules
(`related_call`), so that the walk over the rules is made once, whatever the two evaluations are
compared for. A property of one evaluation is a relation, too: one that leaves the second aside. -/
namespace BaseThree

/-- At the same position, and before the same character. -/
structure Scanner.Alike (k k' : Scanner) : Prop where
  position : k.position = k'.position
  peek : k.peek? = k'.peek?

theorem Scanner.Alike.refl (k : Scanner) : k.Alike k := ⟨rfl, rfl⟩

namespace Evaluation
variable {settings settings' : Settings} {R : {α : Type} → Eval α → Eval α → Prop}

/-- `R` holds of single operations, under either settings, and it goes through sequences. -/
structure Stepwise (settings settings' : Settings) (R : {α : Type} → Eval α → Eval α → Prop) :
    Prop where
  nesting : settings.nesting = settings'.nesting
  pure {α : Type} (a : α) : R (pure a) (pure a)
  bind {α β : Type} {m m' : Eval α} {f f' : α → Eval β} (first : R m m')
    (rest : ∀ a, R (f a) (f' a)) : R (m >>= f) (m' >>= f')
  /-- What is done with the scanner depends on where it is and on the next character. -/
  look {α : Type} {f f' : Scanner → Eval α} (rest : ∀ k k', k.Alike k' → R (f k) (f' k')) :
    R (scanner >>= f) (scanner >>= f')
  peek : R peek peek
  skipBlanks : R skipBlanks skipBlanks
  advance : R advance advance
  depth : R depth depth
  enterGroup : R enterGroup enterGroup
  leaveGroup : R leaveGroup leaveGroup
  fail {kind : Fault.Kind} (inside : kind ≠ .trailingContent) (k : Scanner) (c : Option Char) :
    R (fail (faultAt kind k c) : Eval Int) (fail (faultAt kind k c))
  checked (v : Int) (k : Scanner) : R (checked settings v k) (checked settings' v k)

/-- `R` holds of the loops in rules as well. -/
structure Parametric (settings settings' : Settings) (R : {α : Type} → Eval α → Eval α → Prop) :
    Prop extends Stepwise settings settings' R where
  chainLoop (p : Precedence) {operand operand' : Eval Int} (h : R operand operand') (v : Int) :
    R (scanner >>= fun k => loop (chainTurn settings p operand) k.unread v)
      (scanner >>= fun k => loop (chainTurn settings' p operand') k.unread v)
  numeralLoop :
    R (scanner >>= fun k => loop (numeralTurn settings k) k.unread 0)
      (scanner >>= fun k => loop (numeralTurn settings' k) k.unread 0)

/-! ### Without loops -/

section Stepwise
variable (h : Stepwise settings settings' R) {k k' : Scanner}
include h

theorem related_fail {kind : Fault.Kind} (inside : kind ≠ .trailingContent) (hk : k.Alike k')
    (c : Option Char) : R (fail (faultAt kind k c) : Eval Int) (fail (faultAt kind k' c)) := by
  have hfault : faultAt kind k' c = faultAt kind k c := by
    unfold faultAt
    rw [hk.position]
  rw [hfault]
  exact h.fail inside k c

theorem related_checked (hk : k.Alike k') (v : Int) :
    R (checked settings v k) (checked settings' v k') := by
  have hchecked : checked settings' v k' = checked settings' v k := by
    unfold checked faultAt
    rw [hk.position]
  rw [hchecked]
  exact h.checked v k

theorem related_combine (hk : k.Alike k') (op : Operator) (left right : Int) :
    R (combine settings op left right k) (combine settings' op left right k') := by
  cases op with
  | plus | minus | times => exact related_checked h hk _
  | divide =>
    unfold combine
    by_cases hzero : right = 0
    · simp only [hzero, if_true]
      exact related_fail h (by decide) hk none
    · simp only [hzero, if_false, quotient_of_ne_zero hzero]
      exact related_checked h hk _

theorem related_chainTurn (p : Precedence) {operand operand' : Eval Int}
    (hoperand : R operand operand') (v : Int) :
    R (chainTurn settings p operand v) (chainTurn settings' p operand' v) := by
  refine h.bind h.skipBlanks fun _ => h.look fun k k' hk => ?_
  rw [← hk.peek]
  cases k.peek?.bind p.operator? with
  | none => exact h.pure _
  | some op =>
    refine h.bind h.advance fun _ => h.bind hoperand fun right => ?_
    exact h.bind (related_combine h hk op v right) fun _ => h.pure _

theorem related_numeralTurn (hk : k.Alike k') (v : Int) :
    R (numeralTurn settings k v) (numeralTurn settings' k' v) := by
  refine h.bind h.peek fun c => ?_
  cases c.bind Digit.ofChar? with
  | none => exact h.pure _
  | some d => exact h.bind h.advance fun _ => h.bind (related_checked h hk _) fun _ => h.pure _

theorem related_closeGroup (v : Int) : R (closeGroup v) (closeGroup v) := by
  refine h.bind h.skipBlanks fun _ => h.look fun k k' hk => ?_
  rw [← hk.peek]
  split
  · exact h.bind h.advance fun _ => h.bind h.leaveGroup fun _ => h.pure _
  · exact related_fail h (by decide) hk _

theorem related_group {inner inner' : Eval Int} (hinner : R inner inner') (hk : k.Alike k') :
    R (group settings inner k) (group settings' inner' k') := by
  refine h.bind h.depth fun depth => ?_
  rw [h.nesting]
  by_cases hdeep : settings'.nesting ≤ depth
  · rw [if_pos hdeep, if_pos hdeep]
    exact related_fail h (by decide) hk _
  · rw [if_neg hdeep, if_neg hdeep]
    refine h.bind h.enterGroup fun _ => h.bind h.advance fun _ => ?_
    exact h.bind hinner fun v => related_closeGroup h v

theorem related_factor {inner inner' number number' : Eval Int} (hinner : R inner inner')
    (hnumber : R number number') :
    R (factor settings inner number) (factor settings' inner' number') := by
  refine h.bind h.skipBlanks fun _ => h.look fun k k' hk => ?_
  rw [← hk.peek]
  split
  · exact related_fail h (by decide) hk none
  · exact related_group h hinner hk
  · split
    · exact hnumber
    · split
      · exact related_fail h (by decide) hk _
      · exact related_fail h (by decide) hk _

/-- A loop that is related turn by turn, if both have the same budget. -/
theorem related_loop (hstuck : R (throw .noProgress : Eval Int) (throw .noProgress))
    {turn turn' : Int → Eval Turn} (hturn : ∀ v, R (turn v) (turn' v)) (budget : List Char)
    (v : Int) : R (loop turn budget v) (loop turn' budget v) := by
  induction budget generalizing v with
  | nil =>
    unfold loop
    refine h.bind (hturn v) fun result => ?_
    cases result with
    | last _ => exact h.pure _
    | next _ => exact hstuck
  | cons _ budget ih =>
    unfold loop
    refine h.bind (hturn v) fun result => ?_
    cases result with
    | last _ => exact h.pure _
    | next v => exact ih v

/-- If both evaluations have the same to read, their loops have the same budget. -/
theorem Stepwise.parametric (hscanner : R scanner scanner)
    (hstuck : R (throw .noProgress : Eval Int) (throw .noProgress)) :
    Parametric settings settings' R where
  toStepwise := h
  chainLoop p _ _ hoperand v := h.bind hscanner fun k =>
    related_loop h hstuck (related_chainTurn h p hoperand) k.unread v
  numeralLoop := h.bind hscanner fun k =>
    related_loop h hstuck (related_numeralTurn h (.refl k)) k.unread 0

end Stepwise

/-! ### With loops -/

section Parametric
variable (h : Parametric settings settings' R)
include h

theorem related_chain (p : Precedence) {operand operand' : Eval Int}
    (hoperand : R operand operand') :
    R (chain settings p operand) (chain settings' p operand') :=
  h.bind hoperand fun v => h.chainLoop p hoperand v

theorem related_numeral : R (numeral settings) (numeral settings') := by
  -- The loop and the look at the scanner before it are one step.
  unfold numeral
  rw [← bind_assoc, ← bind_assoc]
  refine h.bind h.numeralLoop fun v => h.look fun k k' hk => ?_
  rw [← hk.peek]
  split
  · exact h.pure _
  · split
    · exact related_fail h.toStepwise (by decide) hk _
    · exact h.pure _

/-- **A relation that holds of the operations and of the loops holds of all rules.** The second
evaluation may have more calls than the first, if the relation holds where those of the first run
out. -/
theorem related_call (more : Nat) (hbase : ∀ r, R (throw .callDepth) (call settings' more r))
    (calls : Nat) (r : Rule) : R (call settings calls r) (call settings' (calls + more) r) := by
  induction calls generalizing r with
  | zero =>
    rw [Nat.zero_add]
    exact hbase r
  | succ calls ih =>
    rw [Nat.succ_add]
    cases r with
    | expression => exact related_chain h .additive (ih .term)
    | term => exact related_chain h .multiplicative (ih .factor)
    | factor => exact related_factor h.toStepwise (ih .expression) (ih .number)
    | number => exact related_numeral h

end Parametric

end Evaluation

end BaseThree
