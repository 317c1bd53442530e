import BaseThree.Proofs.Reading
import Mathlib.Data.List.Forall2

/-! Readings at other offsets.

A reading remembers offsets only to name them in faults. Two readings of the same characters
that stand at different offsets therefore go on in step, and the faults they end in differ
in nothing but the offset (`agrees_run`). Which offset of the one text stands for which of
the other is a relation `P`, and only has to be told for the characters they read. -/
namespace BaseThree
variable {P : Nat → Nat → Prop} {α β γ δ : Type}

/-- The same fault, at an offset that stands for the other's. -/
structure Fault.Matches (P : Nat → Nat → Prop) (f g : Fault) : Prop where
  kind : f.kind = g.kind
  character : f.character = g.character
  position : ∃ p q : Nat, P p q ∧ f.position = some (p : Int) ∧ g.position = some (q : Int)

/-- Related results, or the same fault at offsets that stand for each other. -/
def Agrees (P : Nat → Nat → Prop) (R : α → β → Prop) : Except Fault α → Except Fault β → Prop
  | .ok a, .ok b => R a b
  | .error f, .error g => f.Matches P g
  | _, _ => False

theorem agrees_bind {R : α → β → Prop} {S : γ → δ → Prop} {x : Except Fault α}
    {y : Except Fault β} {f : α → Except Fault γ} {g : β → Except Fault δ} (h : Agrees P R x y)
    (hfg : ∀ a b, R a b → Agrees P S (f a) (g b)) : Agrees P S (x >>= f) (y >>= g) := by
  cases x with
  | ok a =>
    cases y with
    | ok b => exact hfg a b h
    | error g => exact h.elim
  | error f =>
    cases y with
    | ok b => exact h.elim
    | error g => exact h

/-- Two outcomes are the same, but for the positions of their faults. -/
def SameOutcome (S : Option Int → Option Int → Prop) (x y : Except Evaluation.Failure Int) : Prop :=
  (∃ v, x = .ok v ∧ y = .ok v) ∨
    ∃ f g, x = .error (.fault f) ∧ y = .error (.fault g) ∧ f.kind = g.kind ∧
      f.character = g.character ∧ S f.position g.position

theorem sameOutcome_of_agrees {P : Nat → Nat → Prop} {S : Option Int → Option Int → Prop}
    {x y : Except Fault Int} (h : Agrees P Eq x y)
    (hP : ∀ p q, P p q → S (some (p : Int)) (some (q : Int))) :
    SameOutcome S (x.mapError .fault) (y.mapError .fault) := by
  cases x with
  | ok v =>
    cases y with
    | ok w =>
      cases show v = w from h
      exact .inl ⟨v, rfl, rfl⟩
    | error g => exact h.elim
  | error f =>
    cases y with
    | ok w => exact h.elim
    | error g =>
      obtain ⟨hkind, hcharacter, p, q, hpq, hp, hq⟩ := h
      refine .inr ⟨f, g, rfl, rfl, hkind, hcharacter, ?_⟩
      rw [hp, hq]
      exact hP p q hpq

theorem agrees_found (kind : Fault.Kind) (c : Option Char) {R : α → β → Prop} {p q : Nat}
    (h : P p q) : Agrees P R (.error (.found kind p c)) (.error (.found kind q c)) :=
  ⟨rfl, rfl, p, q, h, rfl, rfl⟩

/-! ### What is remembered -/

inductive Pending.Matches (P : Nat → Nat → Prop) :
    Option (Pending Int) → Option (Pending Int) → Prop
  | none : Matches P none none
  | some {op : Operator} {p q : Nat} {v : Int} (h : P p q) :
    Matches P (some ⟨op, p, v⟩) (some ⟨op, q, v⟩)

structure Level.Matches (P : Nat → Nat → Prop) (l m : Level Int) : Prop where
  sum : Pending.Matches P l.sum m.sum
  product : Pending.Matches P l.product m.product

inductive Phase.Matches (P : Nat → Nat → Prop) : Phase Int → Phase Int → Prop
  | operand : Matches P .operand .operand
  | numeral {p q : Nat} {digits : List Digit} {v : Int} (h : P p q) :
    Matches P (.numeral p digits v) (.numeral q digits v)
  | operator {v : Int} : Matches P (.operator v) (.operator v)

/-- Readings that differ only in offsets. -/
structure Reading.Matches (P : Nat → Nat → Prop) (r s : Reading Int) : Prop where
  phase : r.phase.Matches P s.phase
  level : r.level.Matches P s.level
  outer : List.Forall₂ (Level.Matches P) r.outer s.outer

theorem Level.matches_empty : Level.Matches P {} {} := ⟨.none, .none⟩

namespace Reading
variable {settings : Settings} {nesting k l : Nat}

theorem matches_start : Matches P .start .start := ⟨.operand, Level.matches_empty, .nil⟩

/-! ### Values -/

theorem agrees_ranged {p q : Nat} (h : P p q) (v : Int) :
    Agrees P Eq (Grammar.Tree.ranged settings p v) (Grammar.Tree.ranged settings q v) := by
  unfold Grammar.Tree.ranged
  cases settings.inRange v with
  | true => exact rfl
  | false => exact ⟨rfl, rfl, p, q, h, rfl, rfl⟩

theorem agrees_operation {p q : Nat} (h : P p q) (op : Operator) (a b : Int) :
    Agrees P Eq ((Meaning.values settings).operation op p a b)
      ((Meaning.values settings).operation op q a b) := by
  simp only [Meaning.values]
  cases op.result? a b with
  | none => exact ⟨rfl, rfl, p, q, h, rfl, rfl⟩
  | some v => exact agrees_ranged h v

theorem agrees_join {p q : Option (Pending Int)} (h : Pending.Matches P p q) (v : Int) :
    Agrees P Eq (join (.values settings) p v) (join (.values settings) q v) := by
  cases h with
  | none => exact rfl
  | some h => exact agrees_operation h _ _ v

/-! ### Steps -/

variable {outer outer' : List (Level Int)}

theorem agrees_close (ho : List.Forall₂ (Level.Matches P) outer outer') (hk : P k l) (v : Int)
    (c : Char) :
    Agrees P (Matches P) (close (.values settings) v outer k c)
      (close (.values settings) v outer' l c) := by
  cases ho with
  | nil => exact agrees_found _ _ hk
  | cons hlevel ho =>
    unfold close
    dsimp only
    split
    · refine agrees_bind (agrees_join hlevel.product _) fun w w' hw => ?_
      subst hw
      exact ⟨.operator, ⟨hlevel.sum, .none⟩, ho⟩
    · exact agrees_found _ _ hk

theorem agrees_readOperator {sum sum' : Option (Pending Int)} (hs : Pending.Matches P sum sum')
    (ho : List.Forall₂ (Level.Matches P) outer outer') (hk : P k l) (v : Int) (c : Char) :
    Agrees P (Matches P) (readOperator (.values settings) v sum outer k c)
      (readOperator (.values settings) v sum' outer' l c) := by
  rcases operator_cases c with hb | ⟨op, hm⟩ | ⟨op, ha⟩ | ⟨hb, hm, ha⟩
  · rw [readOperator_blank hb, readOperator_blank hb]
    exact ⟨.operator, ⟨hs, .none⟩, ho⟩
  · rw [readOperator_multiplicative hm, readOperator_multiplicative hm]
    exact ⟨.operand, ⟨hs, .some hk⟩, ho⟩
  · rw [readOperator_additive ha, readOperator_additive ha]
    refine agrees_bind (agrees_join hs v) fun w w' hw => ?_
    subst hw
    exact ⟨.operand, ⟨.some hk, .none⟩, ho⟩
  · rw [readOperator_other hb hm ha, readOperator_other hb hm ha]
    refine agrees_bind (agrees_join hs v) fun w w' hw => ?_
    subst hw
    exact agrees_close ho hk w c

theorem agrees_operand {level level' : Level Int} (hl : level.Matches P level')
    (ho : List.Forall₂ (Level.Matches P) outer outer') (hk : P k l) (c : Char) :
    Agrees P (Matches P) (step (.values settings) nesting ⟨.operand, level, outer⟩ k c)
      (step (.values settings) nesting ⟨.operand, level', outer'⟩ l c) := by
  rcases operand_cases c with hb | rfl | ⟨d, hd⟩ | ⟨hb, hp, hd⟩
  · rw [step_operand_blank hb, step_operand_blank hb]
    exact ⟨.operand, hl, ho⟩
  · rw [step_operand_paren, step_operand_paren, ho.length_eq]
    split
    · exact agrees_found _ _ hk
    · exact ⟨.operand, Level.matches_empty, .cons hl ho⟩
  · rw [step_operand_digit hd, step_operand_digit hd]
    refine agrees_bind (agrees_ranged hk _) fun w w' hw => ?_
    subst hw
    exact ⟨.numeral hk, hl, ho⟩
  · rw [step_operand_other hb hp hd, step_operand_other hb hp hd]
    exact agrees_found _ _ hk

/-- **A character does the same to both.** -/
theorem agrees_step {r s : Reading Int} (h : r.Matches P s) (hk : P k l) (c : Char) :
    Agrees P (Matches P) (r.step (.values settings) nesting k c)
      (s.step (.values settings) nesting l c) := by
  obtain ⟨phase, level, outer⟩ := r
  obtain ⟨phase', level', outer'⟩ := s
  obtain ⟨hphase, hlevel, houter⟩ := h
  cases hphase with
  | operand => exact agrees_operand hlevel houter hk c
  | operator => exact agrees_readOperator hlevel.sum houter hk _ c
  | numeral hpq =>
    simp only [step]
    cases hd : Digit.ofChar? c with
    | some d =>
      refine agrees_bind (agrees_ranged hpq _) fun w w' hw => ?_
      subst hw
      exact ⟨.numeral hpq, hlevel, houter⟩
    | none =>
      dsimp only
      split
      · exact agrees_found _ _ hk
      · refine agrees_bind (agrees_join hlevel.product _) fun w w' hw => ?_
        subst hw
        exact agrees_readOperator hlevel.sum houter hk w c

theorem agrees_settle {r s : Reading Int} (h : r.Matches P s) :
    Agrees P (Matches P) (r.settle (.values settings)) (s.settle (.values settings)) := by
  obtain ⟨phase, level, outer⟩ := r
  obtain ⟨phase', level', outer'⟩ := s
  obtain ⟨hphase, hlevel, houter⟩ := h
  cases hphase with
  | operand => exact ⟨.operand, hlevel, houter⟩
  | operator => exact ⟨.operator, hlevel, houter⟩
  | numeral hpq =>
    refine agrees_bind (agrees_join hlevel.product _) fun w w' hw => ?_
    subst hw
    exact ⟨.operator, ⟨hlevel.sum, .none⟩, houter⟩

theorem agrees_closeEnd (ho : List.Forall₂ (Level.Matches P) outer outer') (hk : P k l) (v : Int) :
    Agrees P Eq (closeEnd v outer k) (closeEnd v outer' l) := by
  cases ho with
  | nil => exact rfl
  | cons _ _ => exact agrees_found _ _ hk

theorem agrees_finish {r s : Reading Int} (h : r.Matches P s) (hk : P k l) :
    Agrees P Eq (r.finish (.values settings) k) (s.finish (.values settings) l) := by
  obtain ⟨phase, level, outer⟩ := r
  obtain ⟨phase', level', outer'⟩ := s
  obtain ⟨hphase, hlevel, houter⟩ := h
  have hsum (v : Int) : Agrees P Eq
      (join (.values settings) level.sum v >>= fun v => closeEnd v outer k)
      (join (.values settings) level'.sum v >>= fun v => closeEnd v outer' l) := by
    refine agrees_bind (agrees_join hlevel.sum v) fun w w' hw => ?_
    subst hw
    exact agrees_closeEnd houter hk w
  cases hphase with
  | operand => exact agrees_found _ _ hk
  | operator => exact hsum _
  | numeral hpq =>
    refine agrees_bind (agrees_join hlevel.product _) fun w w' hw => ?_
    subst hw
    exact hsum w

/-! ### Runs -/

theorem agrees_feed {r s : Reading Int} (h : r.Matches P s) {w : List Char}
    (hP : ∀ i < w.length, P (k + i) (l + i)) :
    Agrees P (Matches P) (r.feed (.values settings) nesting k w)
      (s.feed (.values settings) nesting l w) := by
  induction w generalizing r s k l with
  | nil => exact h
  | cons c rest ih =>
    refine agrees_bind (agrees_step h (hP 0 (Nat.succ_pos _)) c) fun r' s' h' => ?_
    refine ih h' fun i hi => ?_
    have hnext := hP (i + 1) (Nat.succ_lt_succ hi)
    rw [Nat.add_comm i 1, ← Nat.add_assoc, ← Nat.add_assoc] at hnext
    exact hnext

theorem agrees_run {r s : Reading Int} (h : r.Matches P s) {w : List Char}
    (hP : ∀ i ≤ w.length, P (k + i) (l + i)) :
    Agrees P Eq (r.run (.values settings) nesting k w) (s.run (.values settings) nesting l w) := by
  rw [run_eq_feed, run_eq_feed]
  refine agrees_bind (agrees_feed h fun i hi => hP i (Nat.le_of_lt hi)) fun r' s' h' => ?_
  exact agrees_finish h' (hP w.length (Nat.le_refl _))

/-- The value of a text does not depend on where it stands. -/
theorem run_start_eq_ok {w : List Char} {v : Int} (l : Nat)
    (h : start.run (.values settings) nesting k w = .ok v) :
    start.run (.values settings) nesting l w = .ok v := by
  have hagrees : Agrees (fun _ _ => True) Eq (start.run (.values settings) nesting k w)
      (start.run (.values settings) nesting l w) := agrees_run matches_start fun _ _ => trivial
  rw [h] at hagrees
  cases hl : start.run (.values settings) nesting l w with
  | ok u =>
    rw [hl] at hagrees
    exact congrArg Except.ok (show v = u from hagrees).symm
  | error f =>
    rw [hl] at hagrees
    exact hagrees.elim

end Reading

end BaseThree
