import BaseThree.Proofs.Reading

/-! The outline of a reading.

Which characters a reading takes depends on two things only: whether an operand has to
start, a numeral goes on or a factor has ended, and how many groups are open. This is
its `Outline`. It changes from character to character no matter what numerals and
operators amount to (`step_outline`); what can still fail is arithmetic.

Any text that an outline can follow can be completed: an operand if one is missing, then
a closing parenthesis for every open group (`exists_completion`). -/
namespace BaseThree

/-- Whether values are at fault, and not the form of the text. -/
def Fault.Kind.isArithmetic : Fault.Kind → Bool
  | divisionByZero => true
  | overflow => true
  | _ => false

theorem Fault.Kind.isArithmetic_of_not_mem {k : Fault.Kind}
    (h : k ∉ [emptyInput, divisionByZero, overflow]) : k.isArithmetic = false := by
  revert h
  cases k <;> decide

inductive Stage
  | operand
  | numeral
  | operator
  deriving DecidableEq, Repr

structure Outline where
  stage : Stage
  /-- The number of groups open. -/
  depth : Nat
  deriving DecidableEq, Repr

namespace Outline

def start : Outline := ⟨.operand, 0⟩

/-- Whether a character may follow a factor. -/
def goesOn (o : Outline) (c : Char) : Bool :=
  Text.isBlank c || (Precedence.multiplicative.operator? c).isSome ||
    (Precedence.additive.operator? c).isSome || (c == ')' && 0 < o.depth)

def accepts (nesting : Nat) (o : Outline) (c : Char) : Bool :=
  match o.stage with
  | .operand => Text.isBlank c || (c == '(' && o.depth < nesting) || (Digit.ofChar? c).isSome
  | .numeral => (Digit.ofChar? c).isSome || o.goesOn c
  | .operator => o.goesOn c

/-- What is wrong with a character that may not follow a factor, no digit aside. -/
def closing (o : Outline) : Fault.Kind :=
  if o.depth = 0 then .trailingContent else .missingParenthesis

/-- What is wrong with a character that is not accepted. -/
def rejection (o : Outline) (c : Char) : Fault.Kind :=
  match o.stage with
  | .operand =>
    if c = '(' then .nestingTooDeep
    else if isForeignDigit c then .invalidDigit else .unexpectedCharacter
  | .numeral => if isForeignDigit c then .invalidDigit else o.closing
  | .operator => o.closing

def afterFactor (o : Outline) (c : Char) : Outline :=
  if Text.isBlank c then ⟨.operator, o.depth⟩
  else if c = ')' then ⟨.operator, o.depth - 1⟩
  else ⟨.operand, o.depth⟩

/-- The outline after a character that is accepted. -/
def after (o : Outline) (c : Char) : Outline :=
  match o.stage with
  | .operand =>
    if Text.isBlank c then o else if c = '(' then ⟨.operand, o.depth + 1⟩ else ⟨.numeral, o.depth⟩
  | .numeral => if (Digit.ofChar? c).isSome then o else o.afterFactor c
  | .operator => o.afterFactor c

/-- The outline after a text, unless a character of it is not accepted. -/
def follow (nesting : Nat) (o : Outline) : List Char → Option Outline
  | [] => some o
  | c :: rest => if o.accepts nesting c then (o.after c).follow nesting rest else none

/-- Whether a text may end here. -/
def complete (o : Outline) : Bool := o.stage != .operand && o.depth == 0

/-- What is wrong with the end of a text that is not complete. -/
def shortfall (o : Outline) : Fault.Kind :=
  if o.stage = .operand then .unexpectedEnd else .missingParenthesis

theorem accepts_of_blank {nesting : Nat} {o : Outline} {c : Char} (h : Text.isBlank c = true) :
    o.accepts nesting c = true := by
  obtain ⟨stage, depth⟩ := o
  cases stage <;> simp [accepts, goesOn, h]

/-- All that an accepted character can do to an outline. -/
inductive Move (nesting : Nat) (o : Outline) : Char → Outline → Prop
  | blank {c : Char} (h : Text.isBlank c = true) :
    Move nesting o c ⟨if o.stage = .operand then .operand else .operator, o.depth⟩
  | opening (hs : o.stage = .operand) (hd : o.depth < nesting) :
    Move nesting o '(' ⟨.operand, o.depth + 1⟩
  | digit {c : Char} {d : Digit} (h : Digit.ofChar? c = some d) :
    Move nesting o c ⟨.numeral, o.depth⟩
  | operator {c : Char} {p : Precedence} {op : Operator} (hs : o.stage ≠ .operand)
    (h : p.operator? c = some op) : Move nesting o c ⟨.operand, o.depth⟩
  | closing (hs : o.stage ≠ .operand) (hd : 0 < o.depth) :
    Move nesting o ')' ⟨.operator, o.depth - 1⟩

theorem move_of_goesOn {nesting : Nat} {o : Outline} {c : Char} (hs : o.stage ≠ .operand)
    (h : o.goesOn c = true) : Move nesting o c (o.afterFactor c) := by
  have hop {p : Precedence} {op : Operator} (hp : p.operator? c = some op) :
      Move nesting o c (o.afterFactor c) := by
    have hparen : c ≠ ')' := by
      rintro rfl
      cases p <;> cases hp
    have hafter : o.afterFactor c = ⟨.operand, o.depth⟩ := by
      simp [afterFactor, Precedence.not_blank_of_operator? hp, hparen]
    rw [hafter]
    exact .operator hs hp
  simp only [goesOn, Bool.or_eq_true, Option.isSome_iff_exists, Bool.and_eq_true, beq_iff_eq,
    decide_eq_true_eq] at h
  rcases h with ((hb | ⟨op, hm⟩) | ⟨op, ha⟩) | ⟨rfl, hd⟩
  · have hmove : Move nesting o c _ := .blank hb
    rw [if_neg hs] at hmove
    unfold afterFactor
    rw [if_pos hb]
    exact hmove
  · exact hop hm
  · exact hop ha
  · exact .closing hs hd

theorem move_of_accepts {nesting : Nat} {o : Outline} {c : Char}
    (h : o.accepts nesting c = true) : Move nesting o c (o.after c) := by
  obtain ⟨stage, depth⟩ := o
  cases stage with
  | operand =>
    simp only [accepts, Bool.or_eq_true, Bool.and_eq_true, beq_iff_eq, decide_eq_true_eq,
      Option.isSome_iff_exists] at h
    rcases h with (hb | ⟨rfl, hd⟩) | ⟨d, hd⟩
    · have hmove : Move nesting ⟨.operand, depth⟩ c _ := .blank hb
      simp only [after, if_pos hb]
      exact hmove
    · exact .opening rfl hd
    · have hparen : c ≠ '(' := by
        rintro rfl
        cases hd
      simp only [after, Digit.not_blank_of_ofChar? hd, hparen]
      exact .digit hd
  | numeral =>
    simp only [accepts, Bool.or_eq_true] at h
    cases hd : Digit.ofChar? c with
    | some d =>
      simp only [after, hd]
      exact .digit hd
    | none =>
      rw [hd] at h
      simp only [after, hd]
      exact move_of_goesOn nofun (h.resolve_left nofun)
  | operator => exact move_of_goesOn nofun h

theorem rejection_not_mem (o : Outline) (c : Char) :
    o.rejection c ∉ [.emptyInput, .divisionByZero, .overflow] := by
  unfold rejection closing
  repeat' split
  all_goals decide

theorem rejection_eq_nestingTooDeep {o : Outline} {c : Char}
    (h : o.rejection c = .nestingTooDeep) : o.stage = .operand ∧ c = '(' := by
  obtain ⟨stage, depth⟩ := o
  unfold rejection closing at h
  cases stage with
  | operand =>
    by_cases hp : c = '('
    · exact ⟨rfl, hp⟩
    · rw [if_neg hp] at h
      cases hf : isForeignDigit c <;> rw [hf] at h <;> cases h
  | numeral | operator =>
    dsimp only at h
    repeat' split at h
    all_goals cases h

theorem shortfall_mem (o : Outline) : o.shortfall ∈ [.unexpectedEnd, .missingParenthesis] := by
  unfold shortfall
  split <;> decide

end Outline

def Phase.stage {α : Type} : Phase α → Stage
  | .operand => .operand
  | .numeral .. => .numeral
  | .operator _ => .operator

namespace Reading
variable {α : Type} {M : Meaning α} {nesting : Nat} {P : Fault → Prop}

def outline (r : Reading α) : Outline := ⟨r.phase.stage, r.outer.length⟩

end Reading

/-- All that can go wrong with numerals and operators. -/
structure Meaning.FailsAs {α : Type} (M : Meaning α) (P : Fault → Prop) : Prop where
  numeral : ∀ place digits f, M.numeral place digits = .error f → P f
  operation : ∀ op place a b f, M.operation op place a b = .error f → P f

namespace Reading
variable {α : Type} {M : Meaning α} {nesting : Nat} {P : Fault → Prop}

/-- A step ends in the next outline, or with a fault of arithmetic, or with the rejection of
a character that is not accepted. -/
def Outlined (P : Fault → Prop) (nesting : Nat) (o : Outline) (k : Nat) (c : Char) :
    Except Fault (Reading α) → Prop
  | .ok r => o.accepts nesting c = true ∧ r.outline = o.after c
  | .error f => P f ∨ (o.accepts nesting c = false ∧ f = .found (o.rejection c) k (some c))

theorem join_fails (hM : M.FailsAs P) {p : Option (Pending α)} {v : α} {f : Fault}
    (h : join M p v = .error f) : P f := by
  cases p with
  | none => cases h
  | some p => exact hM.operation _ _ _ _ _ h

theorem outlined_bind {β : Type} {m : Except Fault β} {g : β → Except Fault (Reading α)}
    {o : Outline} {k : Nat} {c : Char} (hm : ∀ f, m = .error f → P f)
    (hg : ∀ b, m = .ok b → Outlined P nesting o k c (g b)) : Outlined P nesting o k c (m >>= g) := by
  cases h : m with
  | error f => exact .inl (hm f h)
  | ok b => exact hg b h

theorem outlined_close (hM : M.FailsAs P) (v : α) (outer : List (Level α)) (k : Nat) {c : Char}
    (hb : Text.isBlank c = false) (hm : Precedence.multiplicative.operator? c = none)
    (ha : Precedence.additive.operator? c = none) :
    Outlined P nesting ⟨.operator, outer.length⟩ k c (close M v outer k c) := by
  unfold close
  cases outer with
  | nil =>
    refine .inr ⟨?_, rfl⟩
    simp [Outline.accepts, Outline.goesOn, hb, hm, ha]
  | cons level outer =>
    dsimp only
    split
    · rename_i hc
      refine outlined_bind (fun f hf => join_fails hM hf) fun w _ => ⟨?_, ?_⟩
      · simp [Outline.accepts, Outline.goesOn, hc]
      · simp only [Outline.after, Outline.afterFactor, hc]
        rfl
    · rename_i hc
      refine .inr ⟨?_, rfl⟩
      simp [Outline.accepts, Outline.goesOn, hb, hm, ha, hc]

theorem outlined_readOperator (hM : M.FailsAs P) (v : α) (sum : Option (Pending α))
    (outer : List (Level α)) (k : Nat) (c : Char) :
    Outlined P nesting ⟨.operator, outer.length⟩ k c (readOperator M v sum outer k c) := by
  have hop {p : Precedence} {op : Operator} (h : p.operator? c = some op) :
      (⟨.operator, outer.length⟩ : Outline).after c = ⟨.operand, outer.length⟩ := by
    have hparen : c ≠ ')' := by
      rintro rfl
      cases p <;> cases h
    simp [Outline.after, Outline.afterFactor, Precedence.not_blank_of_operator? h, hparen]
  rcases operator_cases c with hb | ⟨op, hm⟩ | ⟨op, ha⟩ | ⟨hb, hm, ha⟩
  · rw [readOperator_blank hb]
    refine ⟨?_, ?_⟩
    · simp [Outline.accepts, Outline.goesOn, hb]
    · simp [Outline.after, Outline.afterFactor, hb, outline, Phase.stage]
  · rw [readOperator_multiplicative hm]
    refine ⟨?_, (hop hm).symm⟩
    simp [Outline.accepts, Outline.goesOn, hm]
  · rw [readOperator_additive ha]
    refine outlined_bind (fun f hf => join_fails hM hf) fun w _ => ⟨?_, (hop ha).symm⟩
    simp [Outline.accepts, Outline.goesOn, ha]
  · rw [readOperator_other hb hm ha]
    exact outlined_bind (fun f hf => join_fails hM hf) fun w _ =>
      outlined_close hM w outer k hb hm ha

/-- After a numeral stands what may stand after any factor. -/
theorem outlined_numeral {depth k : Nat} {c : Char} {x : Except Fault (Reading α)}
    (hd : Digit.ofChar? c = none) (hf : isForeignDigit c = false)
    (h : Outlined P nesting ⟨.operator, depth⟩ k c x) :
    Outlined P nesting ⟨.numeral, depth⟩ k c x := by
  have haccepts : (⟨.numeral, depth⟩ : Outline).accepts nesting c =
      (⟨.operator, depth⟩ : Outline).accepts nesting c := by
    simp [Outline.accepts, Outline.goesOn, hd]
  have hafter : (⟨.numeral, depth⟩ : Outline).after c = (⟨.operator, depth⟩ : Outline).after c := by
    simp [Outline.after, Outline.afterFactor, hd]
  have hrejection : (⟨.numeral, depth⟩ : Outline).rejection c =
      (⟨.operator, depth⟩ : Outline).rejection c := by
    simp [Outline.rejection, Outline.closing, hf]
  unfold Outlined at h ⊢
  rw [haccepts, hafter, hrejection]
  exact h

theorem goesOn_of_foreign {o : Outline} {c : Char} (h : isForeignDigit c = true) :
    o.goesOn c = false := by
  have hparen : c ≠ ')' := by
    rintro rfl
    cases h
  simp [Outline.goesOn, not_blank_of_foreign h, Precedence.operator?_of_foreign _ h, hparen]

theorem outlined_operand (hM : M.FailsAs P) (level : Level α) (outer : List (Level α)) (k : Nat)
    (c : Char) :
    Outlined P nesting ⟨.operand, outer.length⟩ k c
      (step M nesting ⟨.operand, level, outer⟩ k c) := by
  rcases operand_cases c with hb | rfl | ⟨d, hd⟩ | ⟨hb, hp, hd⟩
  · rw [step_operand_blank hb]
    refine ⟨?_, ?_⟩
    · simp [Outline.accepts, hb]
    · simp [Outline.after, hb, outline, Phase.stage]
  · rw [step_operand_paren]
    split
    · rename_i hn
      refine .inr ⟨?_, rfl⟩
      have hblank : Text.isBlank '(' = false := by decide
      have hdigit : Digit.ofChar? '(' = none := rfl
      simp [Outline.accepts, hblank, hdigit, hn]
    · rename_i hn
      refine ⟨?_, rfl⟩
      have hlt : outer.length < nesting := by omega
      simp [Outline.accepts, hlt]
  · rw [step_operand_digit hd]
    refine outlined_bind (fun f hf => hM.numeral _ _ _ hf) fun v _ => ⟨?_, ?_⟩
    · simp [Outline.accepts, hd]
    · have hparen : c ≠ '(' := by
        rintro rfl
        cases hd
      simp [Outline.after, Digit.not_blank_of_ofChar? hd, hparen, outline, Phase.stage]
  · rw [step_operand_other hb hp hd]
    refine .inr ⟨?_, ?_⟩
    · simp [Outline.accepts, hb, hp, hd]
    · simp [Outline.rejection, hp]

/-- **What a step does to the outline does not depend on what is read.** -/
theorem step_outline (hM : M.FailsAs P) (nesting : Nat) (r : Reading α) (k : Nat) (c : Char) :
    Outlined P nesting r.outline k c (r.step M nesting k c) := by
  obtain ⟨phase, level, outer⟩ := r
  cases phase with
  | operand => exact outlined_operand hM level outer k c
  | operator v => exact outlined_readOperator hM v level.sum outer k c
  | numeral place digits v =>
    unfold step
    dsimp only
    split
    · rename_i d hd
      refine outlined_bind (fun f hf => hM.numeral _ _ _ hf) fun w _ => ⟨?_, ?_⟩
      · simp [outline, Phase.stage, Outline.accepts, hd]
      · simp [outline, Phase.stage, Outline.after, hd]
    · rename_i hd
      split
      · rename_i hf
        refine .inr ⟨?_, ?_⟩
        · simp [outline, Phase.stage, Outline.accepts, hd, goesOn_of_foreign hf]
        · simp [outline, Phase.stage, Outline.rejection, hf]
      · rename_i hf
        refine outlined_bind (fun f hf => join_fails hM hf) fun w _ => ?_
        exact outlined_numeral hd (Bool.eq_false_iff.2 hf)
          (outlined_readOperator hM w level.sum outer k c)

/-! ### Runs -/

theorem outline_feed (hM : M.FailsAs P) {r r' : Reading α} {k : Nat} {w : List Char}
    (h : r.feed M nesting k w = .ok r') : r.outline.follow nesting w = some r'.outline := by
  induction w generalizing r k with
  | nil =>
    cases h
    rfl
  | cons c rest ih =>
    have hstep := step_outline hM nesting r k c
    obtain ⟨s, hs, hrest⟩ := exists_of_bind_eq_ok h
    rw [hs] at hstep
    obtain ⟨haccepts, hafter⟩ := hstep
    unfold Outline.follow
    rw [if_pos haccepts, ← hafter]
    exact ih hrest

/-- What can be followed is read, if nothing else can go wrong. -/
theorem feed_of_follow (hM : M.FailsAs fun _ => False) {r : Reading α} (k : Nat) {w : List Char}
    {o : Outline} (h : r.outline.follow nesting w = some o) :
    ∃ r', r.feed M nesting k w = .ok r' ∧ r'.outline = o := by
  induction w generalizing r k with
  | nil =>
    cases h
    exact ⟨r, rfl, rfl⟩
  | cons c rest ih =>
    have hstep := step_outline hM nesting r k c
    unfold Outline.follow at h
    unfold feed
    split at h
    · rename_i haccepts
      cases hs : r.step M nesting k c with
      | error f =>
        rw [hs] at hstep
        rcases hstep with hf | ⟨hrejected, -⟩
        · exact hf.elim
        · rw [haccepts] at hrejected
          cases hrejected
      | ok s =>
        rw [hs] at hstep
        rw [← hstep.2] at h
        exact ih (k + 1) h
    · cases h

theorem finish_outline (hM : M.FailsAs P) (r : Reading α) (k : Nat) :
    match r.finish M k with
    | .ok _ => r.outline.complete = true
    | .error f => P f ∨ (r.outline.complete = false ∧ f = .found r.outline.shortfall k none) := by
  have hclose (v : α) (outer : List (Level α)) (stage : Stage) (hs : stage ≠ .operand) :
      match closeEnd v outer k with
      | .ok _ => (⟨stage, outer.length⟩ : Outline).complete = true
      | .error f => P f ∨ ((⟨stage, outer.length⟩ : Outline).complete = false ∧
          f = .found (⟨stage, outer.length⟩ : Outline).shortfall k none) := by
    cases outer with
    | nil => cases stage <;> first | rfl | exact absurd rfl hs
    | cons level outer => cases stage <;> first | exact .inr ⟨rfl, rfl⟩ | exact absurd rfl hs
  obtain ⟨phase, level, outer⟩ := r
  cases phase with
  | operand => exact .inr ⟨rfl, rfl⟩
  | operator v =>
    simp only [finish]
    cases hj : join M level.sum v with
    | error f => exact .inl (join_fails hM hj)
    | ok w => exact hclose w outer .operator (by decide)
  | numeral place digits v =>
    simp only [finish]
    cases hp : join M level.product v with
    | error f => exact .inl (join_fails hM hp)
    | ok u =>
      simp only [ok_bind]
      cases hj : join M level.sum u with
      | error f => exact .inl (join_fails hM hj)
      | ok w => exact hclose w outer .numeral (by decide)

theorem run_of_follow (hM : M.FailsAs fun _ => False) {r : Reading α} (k : Nat) {w : List Char}
    {o : Outline} (h : r.outline.follow nesting w = some o) (ho : o.complete = true) :
    ∃ v, r.run M nesting k w = .ok v := by
  obtain ⟨r', hr', rfl⟩ := feed_of_follow hM k h
  have hfinish := finish_outline hM r' (k + w.length)
  rw [run_eq_feed, hr', ok_bind]
  cases hf : r'.finish M (k + w.length) with
  | ok v => exact ⟨v, rfl⟩
  | error f =>
    rw [hf] at hfinish
    rcases hfinish with hfail | ⟨hcomplete, -⟩
    · exact hfail.elim
    · rw [ho] at hcomplete
      cases hcomplete

theorem follow_of_run (hM : M.FailsAs P) {r : Reading α} {k : Nat} {w : List Char} {v : α}
    (h : r.run M nesting k w = .ok v) :
    ∃ o, r.outline.follow nesting w = some o ∧ o.complete = true := by
  rw [run_eq_feed] at h
  obtain ⟨r', hfeed, hend⟩ := exists_of_bind_eq_ok h
  have hfinish := finish_outline hM r' (k + w.length)
  rw [hend] at hfinish
  exact ⟨r'.outline, outline_feed hM hfeed, hfinish⟩

/-- Where and why a run stops, unless it is for arithmetic. -/
theorem run_error (hM : M.FailsAs P) {r : Reading α} {k : Nat} {w : List Char} {f : Fault}
    (h : r.run M nesting k w = .error f) (hf : ¬P f) :
    (∃ u c rest o, w = u ++ c :: rest ∧ r.outline.follow nesting u = some o ∧
      o.accepts nesting c = false ∧ f = .found (o.rejection c) (k + u.length : Nat) (some c)) ∨
    (∃ o, r.outline.follow nesting w = some o ∧ o.complete = false ∧
      f = .found o.shortfall (k + w.length : Nat) none) := by
  induction w generalizing r k with
  | nil =>
    have hfinish := finish_outline hM r k
    unfold run at h
    rw [h] at hfinish
    rcases hfinish with hfail | ⟨hcomplete, rfl⟩
    · exact absurd hfail hf
    · exact .inr ⟨_, rfl, hcomplete, rfl⟩
  | cons c rest ih =>
    have hstep := step_outline hM nesting r k c
    unfold run at h
    cases hs : r.step M nesting k c with
    | error g =>
      rw [hs] at h hstep
      cases h
      rcases hstep with hfail | ⟨hrejected, rfl⟩
      · exact absurd hfail hf
      · exact .inl ⟨[], c, rest, _, rfl, rfl, hrejected, rfl⟩
    | ok s =>
      rw [hs, ok_bind] at h
      rw [hs] at hstep
      obtain ⟨haccepts, hafter⟩ := hstep
      have hfollow (u : List Char) :
          r.outline.follow nesting (c :: u) = s.outline.follow nesting u := by
        rw [Outline.follow, if_pos haccepts, hafter]
      rcases ih h with ⟨u, c', rest', o, rfl, ho, hrejected, rfl⟩ | ⟨o, ho, hcomplete, rfl⟩
      · refine .inl ⟨c :: u, c', rest', o, rfl, (hfollow u).trans ho, hrejected, ?_⟩
        rw [List.length_cons, Nat.add_assoc, Nat.add_comm 1]
      · refine .inr ⟨o, (hfollow rest).trans ho, hcomplete, ?_⟩
        rw [List.length_cons, Nat.add_assoc, Nat.add_comm 1]

end Reading

/-! ### Completing a text -/

namespace Outline

theorem follow_append (nesting : Nat) (o : Outline) (u w : List Char) :
    o.follow nesting (u ++ w) = (o.follow nesting u).bind fun o => o.follow nesting w := by
  induction u generalizing o with
  | nil => rfl
  | cons c rest ih =>
    simp only [List.cons_append, follow]
    split
    · exact ih _
    · rfl

theorem follow_parens (nesting : Nat) (stage : Stage) (hs : stage ≠ .operand) (depth : Nat) :
    ∃ o, (⟨stage, depth⟩ : Outline).follow nesting (List.replicate depth ')') = some o ∧
      o.complete = true := by
  induction depth generalizing stage with
  | zero => exact ⟨_, rfl, by cases stage <;> first | rfl | exact absurd rfl hs⟩
  | succ depth ih =>
    have hstep : (⟨stage, depth + 1⟩ : Outline).follow nesting (List.replicate (depth + 1) ')') =
        (⟨.operator, depth⟩ : Outline).follow nesting (List.replicate depth ')') := by
      cases stage <;> first | rfl | exact absurd rfl hs
    rw [hstep]
    exact ih .operator (by decide)

theorem exists_completion (nesting : Nat) (o : Outline) :
    ∃ w o', o.follow nesting w = some o' ∧ o'.complete = true := by
  obtain ⟨stage, depth⟩ := o
  cases stage with
  | operand =>
    obtain ⟨o', hfollow, hcomplete⟩ := follow_parens nesting .numeral (by decide) depth
    exact ⟨'0' :: List.replicate depth ')', o', hfollow, hcomplete⟩
  | numeral =>
    obtain ⟨o', h⟩ := follow_parens nesting .numeral (by decide) depth
    exact ⟨_, o', h⟩
  | operator =>
    obtain ⟨o', h⟩ := follow_parens nesting .operator (by decide) depth
    exact ⟨_, o', h⟩

end Outline

namespace Meaning

theorem ranged_fails {settings : Settings} {place : Nat} {v : Int} {f : Fault}
    (h : Grammar.Tree.ranged settings place v = .error f) : f.kind.isArithmetic = true := by
  unfold Grammar.Tree.ranged at h
  split at h
  · cases h
  · cases h
    rfl

/-- Values fail as arithmetic does. -/
theorem values_fails (settings : Settings) :
    (values settings).FailsAs fun f => f.kind.isArithmetic = true where
  numeral _ _ _ h := ranged_fails h
  operation op place a b f h := by
    simp only [values] at h
    split at h
    · cases h
      rfl
    · exact ranged_fails h

theorem trees_fails : trees.FailsAs fun _ => False where
  numeral _ _ _ h := by cases h
  operation _ _ _ _ _ h := by cases h

end Meaning

end BaseThree
