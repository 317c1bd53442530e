import BaseThree.Proofs.Numeral
import BaseThree.Proofs.Reading
import BaseThree.Proofs.Settings

/-! Reading trees and reading values.

What a reading of trees has in hand can be evaluated: the groups from the outside, in
each the operators that wait and then what was read last. A step of the reading of trees
is a step of the reading of values on what is in hand (`evaluate_step`), so the value of
a tree that was read is the value that is read (`evaluate_run`). The checks of a numeral
digit by digit are a check of the whole: a numeral only grows (`ranged_concat`).

Only values can fail, and only as arithmetic does: where the reading of trees stops with
a fault, the reading of values has stopped by then. -/
namespace BaseThree
open Grammar

variable {settings : Settings}

/-! ### Evaluating what is in hand -/

def Pending.evaluate (settings : Settings) : Option (Pending Tree) →
    Except Fault (Option (Pending Int))
  | none => .ok none
  | some p => do
    let v ← p.left.value settings
    .ok (some ⟨p.op, p.place, v⟩)

def Level.evaluate (settings : Settings) (level : Level Tree) : Except Fault (Level Int) := do
  let sum ← Pending.evaluate settings level.sum
  let product ← Pending.evaluate settings level.product
  .ok ⟨sum, product⟩

/-- The outermost group first. -/
def Level.evaluateAll (settings : Settings) : List (Level Tree) → Except Fault (List (Level Int))
  | [] => .ok []
  | level :: outer => do
    let outer ← Level.evaluateAll settings outer
    let level ← level.evaluate settings
    .ok (level :: outer)

def Phase.evaluate (settings : Settings) : Phase Tree → Except Fault (Phase Int)
  | .operand => .ok .operand
  | .numeral place digits t => do
    let v ← t.value settings
    .ok (.numeral place digits v)
  | .operator t => do
    let v ← t.value settings
    .ok (.operator v)

def Reading.evaluate (settings : Settings) (r : Reading Tree) : Except Fault (Reading Int) := do
  let outer ← Level.evaluateAll settings r.outer
  let level ← r.level.evaluate settings
  let phase ← r.phase.evaluate settings
  .ok ⟨phase, level, outer⟩

/-- The tree of a waiting operator, now that its right operand is there. -/
def Pending.tree : Option (Pending Tree) → Tree → Tree
  | none, t => t
  | some p, t => .operation p.op p.place p.left t

namespace Reading

theorem join_trees (p : Option (Pending Tree)) (t : Tree) :
    join .trees p t = .ok (Pending.tree p t) := by
  cases p <;> rfl

theorem value_tree (p : Option (Pending Tree)) (t : Tree) :
    (Pending.tree p t).value settings = (do
      let p ← Pending.evaluate settings p
      let v ← t.value settings
      join (.values settings) p v) := by
  cases p with
  | none => exact (bind_pure (t.value settings)).symm
  | some p =>
    simp only [Pending.tree, Tree.value, Pending.evaluate]
    cases p.left.value settings <;> rfl

/-- What is out of range stays so when a digit is added. -/
theorem ranged_concat (place : Nat) (digits : List Digit) (d : Digit) :
    Tree.ranged settings place (Numeral.ofDigits (digits ++ [d])) = (do
      let _ ← Tree.ranged settings place (Numeral.ofDigits digits)
      Tree.ranged settings place (Numeral.ofDigits (digits ++ [d]))) := by
  have hle := Numeral.ofDigits_le_concat digits d
  unfold Tree.ranged
  cases hs : settings.inRange (Numeral.ofDigits digits) with
  | true => rfl
  | false =>
    have hl : settings.inRange (Numeral.ofDigits (digits ++ [d])) = false := by
      rw [← Bool.not_eq_true] at hs ⊢
      exact fun h => hs (Settings.inRange_of_le (by omega) (by omega) h)
    rw [hl]
    rfl

/-- A numeral that goes on stands for its digits, and after a factor no operator of the
higher precedence waits. -/
def Genuine (r : Reading Tree) : Prop :=
  match r.phase with
  | .operand => True
  | .numeral place digits t => t = .numeral place digits
  | .operator _ => r.level.product = none

theorem genuine_goesOn {t : Tree} {sum : Option (Pending Tree)} {outer : List (Level Tree)}
    {k : Nat} {c : Char} {r : Reading Tree} (h : GoesOn .trees k t sum outer c r) :
    r.Genuine := by
  cases h with
  | blank | closing => rfl
  | product | sum => trivial

theorem Genuine.step {r r' : Reading Tree} {nesting k : Nat} {c : Char}
    (h : r.step .trees nesting k c = .ok r') : r'.Genuine := by
  cases step_eq_ok_iff.1 h with
  | blank | opening => trivial
  | first _ hv =>
    cases hv
    rfl
  | digit _ hw =>
    cases hw
    rfl
  | afterNumeral _ _ _ hnext => exact genuine_goesOn hnext
  | afterFactor hnext => exact genuine_goesOn hnext

theorem evaluate_goesOn {t : Tree} {sum : Option (Pending Tree)} {outer : List (Level Tree)}
    {k : Nat} {c : Char} {r : Reading Tree} (h : GoesOn .trees k t sum outer c r) :
    r.evaluate settings = (do
      let outer ← Level.evaluateAll settings outer
      let sum ← Pending.evaluate settings sum
      let v ← t.value settings
      readOperator (.values settings) v sum outer k c) := by
  cases h with
  | blank hb =>
    simp only [evaluate, Level.evaluate, Phase.evaluate, Pending.evaluate, bind_assoc, ok_bind,
      readOperator_blank hb]
  | product hm =>
    simp only [evaluate, Level.evaluate, Phase.evaluate, Pending.evaluate, bind_assoc, ok_bind,
      readOperator_multiplicative hm]
  | sum ha hw =>
    rw [join_trees] at hw
    cases hw
    simp only [evaluate, Level.evaluate, Phase.evaluate, Pending.evaluate, value_tree, bind_assoc,
      ok_bind, readOperator_additive ha]
  | closing hw hx =>
    rw [join_trees] at hw hx
    cases hw
    cases hx
    simp only [evaluate, Level.evaluateAll, Level.evaluate, Phase.evaluate, Pending.evaluate,
      value_tree, Tree.value, Meaning.trees, bind_assoc, ok_bind, readOperator_close, close,
      if_true]
    rfl

theorem length_evaluateAll {outer : List (Level Tree)} {values : List (Level Int)}
    (h : Level.evaluateAll settings outer = .ok values) : values.length = outer.length := by
  induction outer generalizing values with
  | nil =>
    cases h
    rfl
  | cons level outer ih =>
    obtain ⟨values', houter, h⟩ := exists_of_bind_eq_ok h
    obtain ⟨level', -, h⟩ := exists_of_bind_eq_ok h
    cases h
    exact congrArg Nat.succ (ih houter)

/-- **A step of the reading of trees is a step of the reading of values.** -/
theorem evaluate_step {r r' : Reading Tree} (hr : r.Genuine) {nesting k : Nat} {c : Char}
    (h : r.step .trees nesting k c = .ok r') :
    r'.evaluate settings = r.evaluate settings >>= fun r => r.step (.values settings) nesting k c := by
  cases step_eq_ok_iff.1 h with
  | blank hb =>
    simp only [evaluate, Phase.evaluate, bind_assoc, ok_bind, step_operand_blank hb]
  | @opening level outer hroom =>
    simp only [evaluate, Level.evaluateAll, Phase.evaluate, bind_assoc, ok_bind]
    cases ho : Level.evaluateAll settings outer with
    | error f => rfl
    | ok values =>
      rw [← length_evaluateAll ho] at hroom
      simp only [ok_bind, step_operand_open hroom]
      rfl
  | first hd hv =>
    cases hv
    simp only [evaluate, Phase.evaluate, Tree.value, bind_assoc, ok_bind, step_operand_digit hd]
    rfl
  | digit hd hw =>
    cases hw
    cases hr
    simp only [evaluate, Phase.evaluate, Tree.value, bind_assoc, ok_bind, step, hd]
    rw [ranged_concat]
    simp only [bind_assoc]
    rfl
  | afterNumeral hd hf hw hnext =>
    rw [join_trees] at hw
    cases hw
    cases hr
    rw [evaluate_goesOn hnext]
    simp only [evaluate, Level.evaluate, Phase.evaluate, value_tree, bind_assoc, ok_bind, step,
      hd, hf, Bool.false_eq_true, if_false]
  | @afterFactor t level outer c r' hnext =>
    have hp : level.product = none := hr
    rw [evaluate_goesOn hnext]
    simp only [evaluate, Level.evaluate, Phase.evaluate, hp, Pending.evaluate, bind_assoc, ok_bind]
    rfl

theorem Genuine.feed {r r' : Reading Tree} (hr : r.Genuine) {nesting k : Nat} {w : List Char}
    (h : r.feed .trees nesting k w = .ok r') : r'.Genuine := by
  induction w generalizing r k with
  | nil =>
    cases h
    exact hr
  | cons c rest ih =>
    obtain ⟨s, hs, hrest⟩ := exists_of_bind_eq_ok h
    exact ih (Genuine.step hs) hrest

theorem evaluate_feed {r r' : Reading Tree} (hr : r.Genuine) {nesting k : Nat} {w : List Char}
    (h : r.feed .trees nesting k w = .ok r') :
    r'.evaluate settings =
      r.evaluate settings >>= fun r => r.feed (.values settings) nesting k w := by
  induction w generalizing r k with
  | nil =>
    cases h
    exact (bind_pure _).symm
  | cons c rest ih =>
    obtain ⟨s, hs, hrest⟩ := exists_of_bind_eq_ok h
    rw [ih (Genuine.step hs) hrest, evaluate_step hr hs, bind_assoc]
    rfl

theorem closeEnd_eq_ok {α : Type} {v w : α} {outer : List (Level α)} {k : Nat}
    (h : closeEnd v outer k = .ok w) : outer = [] ∧ w = v := by
  cases outer with
  | nil =>
    cases h
    exact ⟨rfl, rfl⟩
  | cons _ _ => cases h

theorem evaluate_finish {r : Reading Tree} {t : Tree} (hr : r.Genuine) {k : Nat}
    (h : r.finish .trees k = .ok t) :
    t.value settings = r.evaluate settings >>= fun r => r.finish (.values settings) k := by
  obtain ⟨phase, level, outer⟩ := r
  cases phase with
  | operand => cases h
  | numeral place digits t' =>
    cases show t' = .numeral place digits from hr
    simp only [finish, join_trees, ok_bind] at h
    obtain ⟨rfl, rfl⟩ := closeEnd_eq_ok h
    simp only [evaluate, Level.evaluateAll, Level.evaluate, Phase.evaluate, value_tree, bind_assoc,
      ok_bind, bind_ok, finish, closeEnd]
  | operator t' =>
    have hp : level.product = none := hr
    simp only [finish, join_trees, ok_bind] at h
    obtain ⟨rfl, rfl⟩ := closeEnd_eq_ok h
    simp only [evaluate, Level.evaluateAll, Level.evaluate, Phase.evaluate, hp, Pending.evaluate,
      value_tree, bind_assoc, ok_bind, bind_ok, finish, closeEnd]

/-- **The value of a tree that was read is the value that is read.** -/
theorem evaluate_run {r : Reading Tree} {t : Tree} (hr : r.Genuine) {nesting k : Nat}
    {w : List Char} (h : r.run .trees nesting k w = .ok t) :
    t.value settings = r.evaluate settings >>= fun r => r.run (.values settings) nesting k w := by
  rw [run_eq_feed] at h
  obtain ⟨s, hfeed, hend⟩ := exists_of_bind_eq_ok h
  rw [evaluate_finish (hr.feed hfeed) hend, evaluate_feed hr hfeed, bind_assoc]
  simp only [run_eq_feed]

end Reading

end BaseThree
