import BaseThree.Proofs.Reading.Trees
import BaseThree.Proofs.Reading.Places

/-! Reading a group.

What stands between two parentheses is read as a text by itself would be read, on top of
the groups that are open around it (`step_under`), unless these leave no room for its own.
Its closing parenthesis leaves nothing of it but its value (`run_group`). -/
namespace BaseThree.Reading
variable {α : Type} {M : Meaning α} {nesting : Nat}

/-- The same reading inside of other groups. -/
def under (r : Reading α) (outer : List (Level α)) : Reading α := {r with outer := r.outer ++ outer}

/-- Done, or there is no room for another group. -/
def Fitting {β : Type} (x : Except Fault β) (b : β) : Prop :=
  x = .ok b ∨ ∃ f, x = .error f ∧ f.kind = .nestingTooDeep

theorem goesOn_under {v : α} {sum : Option (Pending α)} {inner outer : List (Level α)} {k : Nat}
    {c : Char} {r : Reading α} (h : GoesOn M k v sum inner c r) :
    GoesOn M k v sum (inner ++ outer) c (r.under outer) := by
  cases h with
  | blank hb => exact .blank hb
  | product hm => exact .product hm
  | sum ha hw => exact .sum ha hw
  | closing hw hx => exact .closing hw hx

/-- **A character that is read is read the same inside of other groups**, if there is room. -/
theorem step_under {r r' : Reading α} {k : Nat} {c : Char} (outer : List (Level α))
    (h : r.step M nesting k c = .ok r') :
    Fitting ((r.under outer).step M nesting k c) (r'.under outer) := by
  cases step_eq_ok_iff.1 h with
  | blank hb => exact .inl (step_eq_ok_iff.2 (.blank hb))
  | @opening level inner _ =>
    show Fitting (step M nesting ⟨.operand, level, inner ++ outer⟩ k '(') _
    rw [step_operand_paren]
    split
    · exact .inr ⟨_, rfl, rfl⟩
    · exact .inl rfl
  | first hd hv => exact .inl (step_eq_ok_iff.2 (.first hd hv))
  | digit hd hw => exact .inl (step_eq_ok_iff.2 (.digit hd hw))
  | afterNumeral hd hf hw hnext =>
    exact .inl (step_eq_ok_iff.2 (.afterNumeral hd hf hw (goesOn_under hnext)))
  | afterFactor hnext => exact .inl (step_eq_ok_iff.2 (.afterFactor (goesOn_under hnext)))

theorem feed_under {r r' : Reading α} {k : Nat} {w : List Char} (outer : List (Level α))
    (h : r.feed M nesting k w = .ok r') :
    Fitting ((r.under outer).feed M nesting k w) (r'.under outer) := by
  induction w generalizing r k with
  | nil =>
    cases h
    exact .inl rfl
  | cons c rest ih =>
    obtain ⟨s, hs, hrest⟩ := exists_of_bind_eq_ok h
    unfold feed
    rcases step_under outer hs with hstep | ⟨f, hstep, hf⟩
    · rw [hstep]
      exact ih hrest
    · rw [hstep]
      exact .inr ⟨f, rfl, hf⟩

/-- A parenthesis that follows a complete expression closes the group around it. -/
theorem step_close {r : Reading α} {v : α} {k l : Nat} (level : Level α) (outer : List (Level α))
    (h : r.finish M k = .ok v) :
    (r.under (level :: outer)).step M nesting l ')' =
      join M level.product (M.group v) >>=
        fun v => .ok ⟨.operator v, ⟨level.sum, none⟩, outer⟩ := by
  obtain ⟨phase, inner, groups⟩ := r
  have hend {w : α} (hw : (join M inner.sum w >>= fun w => closeEnd w groups k) = .ok v) :
      readOperator M w inner.sum (groups ++ level :: outer) l ')' =
        join M level.product (M.group v) >>=
          fun v => .ok ⟨.operator v, ⟨level.sum, none⟩, outer⟩ := by
    obtain ⟨x, hx, hw⟩ := exists_of_bind_eq_ok hw
    obtain ⟨rfl, rfl⟩ := closeEnd_eq_ok hw
    rw [readOperator_close, hx]
    rfl
  cases phase with
  | operand => cases h
  | operator w => exact hend h
  | numeral place digits w =>
    obtain ⟨x, hx, h⟩ := exists_of_bind_eq_ok h
    have hstep : (under ⟨.numeral place digits w, inner, groups⟩ (level :: outer)).step M nesting l
        ')' = join M inner.product w >>=
          fun w => readOperator M w inner.sum (groups ++ level :: outer) l ')' := rfl
    rw [hstep, hx]
    exact hend h

variable {settings : Settings}

/-- Goes on after a group with nothing but its value. -/
def runAfter (settings : Settings) (nesting : Nat) (level : Level Int) (outer : List (Level Int))
    (v : Int) (k : Nat) (rest : List Char) : Except Fault Int := do
  let v ← join (.values settings) level.product v
  run (.values settings) nesting ⟨.operator v, ⟨level.sum, none⟩, outer⟩ k rest

theorem agrees_runAfter {P : Nat → Nat → Prop} {level : Level Int} {outer : List (Level Int)}
    (hl : level.Matches P level) (ho : List.Forall₂ (Level.Matches P) outer outer) (v : Int)
    {k l : Nat} {rest : List Char} (hP : ∀ i ≤ rest.length, P (k + i) (l + i)) :
    Agrees P Eq (runAfter settings nesting level outer v k rest)
      (runAfter settings nesting level outer v l rest) := by
  refine agrees_bind (agrees_join hl.product v) fun w w' hw => ?_
  subst hw
  exact agrees_run ⟨.operator, ⟨hl.sum, .none⟩, ho⟩ hP

theorem not_goesOn_open {v : α} {sum : Option (Pending α)} {outer : List (Level α)} {k : Nat}
    {r : Reading α} : ¬GoesOn M k v sum outer '(' r := by
  intro h
  cases h with
  | blank hb => exact absurd hb (by decide)
  | product hm => cases hm
  | sum ha _ => cases ha

theorem step_open {r r' : Reading α} {k : Nat} (h : r.step M nesting k '(' = .ok r') :
    ∃ level outer, r' = ⟨.operand, {}, level :: outer⟩ := by
  cases step_eq_ok_iff.1 h with
  | blank hb => exact absurd hb (by decide)
  | @opening level outer _ => exact ⟨level, outer, rfl⟩
  | first hd | digit hd => cases hd
  | afterNumeral _ _ _ hnext => exact absurd hnext not_goesOn_open
  | afterFactor hnext => exact absurd hnext not_goesOn_open

/-- **Nothing is left of a group but its value.** -/
theorem run_group {s : List Char} {v : Int}
    (h : start.run (.values settings) nesting 0 s = .ok v) (level : Level Int)
    (outer : List (Level Int)) (k : Nat) (rest : List Char) :
    run (.values settings) nesting ⟨.operand, {}, level :: outer⟩ k (s ++ ')' :: rest) =
        runAfter settings nesting level outer v (k + s.length + 1) rest ∨
      ∃ f, run (.values settings) nesting ⟨.operand, {}, level :: outer⟩ k (s ++ ')' :: rest) =
        .error f ∧ f.kind = .nestingTooDeep := by
  have hk := run_start_eq_ok k h
  rw [run_eq_feed] at hk
  obtain ⟨r, hfeed, hfinish⟩ := exists_of_bind_eq_ok hk
  rw [run_append]
  have hinside : Fitting (feed (.values settings) nesting ⟨.operand, {}, level :: outer⟩ k s)
      (r.under (level :: outer)) := feed_under (level :: outer) hfeed
  rcases hinside with hs | ⟨f, hs, hf⟩
  · rw [hs, ok_bind, run, step_close level outer hfinish]
    unfold runAfter
    left
    rw [show (Meaning.values settings).group v = v from rfl]
    cases join (.values settings) level.product v <;> rfl
  · rw [hs]
    exact .inr ⟨f, rfl, hf⟩

end BaseThree.Reading
