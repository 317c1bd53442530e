import BaseThree.Grammar
import BaseThree.Proofs.Character

/-! Reading a text one character at a time.

A `Reading` is what has to be remembered of the characters read so far: whether an
operand or an operator comes next, and for every open group the operators that still
wait for their right operand. `step` takes one character, `finish` the end of the text;
neither looks further ahead. What numerals and operators amount to is a `Meaning`:
their values in the range of some settings, or trees. `Steps` lists all that a character
that is taken can do (`step_eq_ok_iff`), and what steps preserve is shown case by case of it.

A rule of evaluation and a reading go over the same text (`Proofs/Reading/Evaluation`);
that they do is where every law of whole texts starts. -/
namespace BaseThree

theorem ok_bind {ε α β : Type} (a : α) (f : α → Except ε β) : (Except.ok a >>= f) = f a := rfl

theorem error_bind {ε α β : Type} (e : ε) (f : α → Except ε β) :
    (Except.error e >>= f) = Except.error e := rfl

theorem bind_ok {ε α : Type} (m : Except ε α) : (m >>= fun a => Except.ok a) = m := bind_pure m

theorem exists_of_bind_eq_ok {ε α β : Type} {m : Except ε α} {f : α → Except ε β} {b : β}
    (h : m >>= f = .ok b) : ∃ a, m = .ok a ∧ f a = .ok b := by
  cases m with
  | ok a => exact ⟨a, rfl, h⟩
  | error e => cases h

theorem error_of_bind_eq_error {ε α β : Type} {m : Except ε α} {f : α → Except ε β} {e : ε}
    (h : m >>= f = .error e) : m = .error e ∨ ∃ a, m = .ok a ∧ f a = .error e := by
  cases m with
  | ok a => exact .inr ⟨a, rfl, h⟩
  | error e' =>
    cases h
    exact .inl rfl

/-- A fault at an offset, with the character there unless the text ends. -/
def Fault.found (kind : Fault.Kind) (k : Nat) (c : Option Char) : Fault :=
  { kind := kind
    position := some k
    character := c.map String.singleton }

/-- What the parts of an expression amount to: a numeral given the offset of its first digit
and its digits, an operator given its offset and its operands. -/
structure Meaning (α : Type) where
  numeral : Nat → List Digit → Except Fault α
  operation : Operator → Nat → α → α → Except Fault α
  group : α → α

namespace Meaning
open Grammar

/-- Values in range; division by zero has none. -/
def values (settings : Settings) : Meaning Int where
  numeral place digits := Tree.ranged settings place (Numeral.ofDigits digits)
  operation op place a b :=
    match op.result? a b with
    | none => .error { kind := .divisionByZero, position := some place }
    | some v => Tree.ranged settings place v
  group v := v

def trees : Meaning Tree where
  numeral place digits := .ok (.numeral place digits)
  operation op place l r := .ok (.operation op place l r)
  group t := .group t

end Meaning

/-- An operator that waits for its right operand. -/
structure Pending (α : Type) where
  op : Operator
  place : Nat
  left : α

/-- The operators that wait in one group, at most one of each precedence. -/
structure Level (α : Type) where
  sum : Option (Pending α) := none
  product : Option (Pending α) := none

inductive Phase (α : Type)
  /-- An operand has to start. -/
  | operand
  /-- A numeral goes on. -/
  | numeral (place : Nat) (digits : List Digit) (value : α)
  /-- A factor has ended; `value` is that of the term up to it. -/
  | operator (value : α)

structure Reading (α : Type) where
  phase : Phase α
  /-- The innermost group, or the whole text. -/
  level : Level α
  /-- The groups around it, innermost first. -/
  outer : List (Level α)

namespace Reading
variable {α : Type} (M : Meaning α) (nesting : Nat)

/-- Before the first character. -/
def start : Reading α := ⟨.operand, {}, []⟩

/-- The value of a waiting operator, now that its right operand is there. -/
def join : Option (Pending α) → α → Except Fault α
  | none, v => .ok v
  | some p, v => M.operation p.op p.place p.left v

/-- Ends a numeral, if one goes on. -/
def settle (r : Reading α) : Except Fault (Reading α) :=
  match r.phase with
  | .numeral _ _ v => do
    let v ← join M r.level.product v
    .ok ⟨.operator v, ⟨r.level.sum, none⟩, r.outer⟩
  | _ => .ok r

/-- Where an operand has to start. -/
def readOperand (level : Level α) (outer : List (Level α)) (k : Nat) (c : Char) :
    Except Fault (Reading α) :=
  if Text.isBlank c then .ok ⟨.operand, level, outer⟩
  else if c = '(' then
    if nesting ≤ outer.length then .error (.found .nestingTooDeep k (some c))
    else .ok ⟨.operand, {}, level :: outer⟩
  else
    match Digit.ofChar? c with
    | some d => do
      let v ← M.numeral k [d]
      .ok ⟨.numeral k [d] v, level, outer⟩
    | none =>
      if isForeignDigit c then .error (.found .invalidDigit k (some c))
      else .error (.found .unexpectedCharacter k (some c))

/-- After a complete expression: only the end of its group may follow. -/
def close (v : α) (outer : List (Level α)) (k : Nat) (c : Char) : Except Fault (Reading α) :=
  match outer with
  | [] => .error (.found .trailingContent k (some c))
  | level :: outer =>
    if c = ')' then do
      let v ← join M level.product (M.group v)
      .ok ⟨.operator v, ⟨level.sum, none⟩, outer⟩
    else .error (.found .missingParenthesis k (some c))

/-- After a factor; `v` is the value of the term up to it. -/
def readOperator (v : α) (sum : Option (Pending α)) (outer : List (Level α)) (k : Nat) (c : Char) :
    Except Fault (Reading α) :=
  if Text.isBlank c then .ok ⟨.operator v, ⟨sum, none⟩, outer⟩
  else
    match Precedence.multiplicative.operator? c with
    | some op => .ok ⟨.operand, ⟨sum, some ⟨op, k, v⟩⟩, outer⟩
    | none => do
      let v ← join M sum v
      match Precedence.additive.operator? c with
      | some op => .ok ⟨.operand, ⟨some ⟨op, k, v⟩, none⟩, outer⟩
      | none => close M v outer k c

/-- Takes the character at offset `k`. -/
def step (r : Reading α) (k : Nat) (c : Char) : Except Fault (Reading α) :=
  match r.phase with
  | .operand => readOperand M nesting r.level r.outer k c
  | .numeral place digits v =>
    match Digit.ofChar? c with
    | some d => do
      let v ← M.numeral place (digits ++ [d])
      .ok ⟨.numeral place (digits ++ [d]) v, r.level, r.outer⟩
    | none =>
      if isForeignDigit c then .error (.found .invalidDigit k (some c))
      else do
        let v ← join M r.level.product v
        readOperator M v r.level.sum r.outer k c
  | .operator v => readOperator M v r.level.sum r.outer k c

/-- After a complete expression, at the end of the text. -/
def closeEnd (v : α) (outer : List (Level α)) (k : Nat) : Except Fault α :=
  match outer with
  | [] => .ok v
  | _ :: _ => .error (.found .missingParenthesis k none)

/-- Takes the end of the text, at offset `k`. -/
def finish (r : Reading α) (k : Nat) : Except Fault α :=
  match r.phase with
  | .operand => .error (.found .unexpectedEnd k none)
  | .numeral _ _ v => do
    let v ← join M r.level.product v
    let v ← join M r.level.sum v
    closeEnd v r.outer k
  | .operator v => do
    let v ← join M r.level.sum v
    closeEnd v r.outer k

/-- Takes characters, the first of them at offset `k`. -/
def feed (r : Reading α) (k : Nat) : List Char → Except Fault (Reading α)
  | [] => .ok r
  | c :: rest => do
    let r ← r.step M nesting k c
    feed r (k + 1) rest

/-- Takes all that is left of a text. -/
def run (r : Reading α) (k : Nat) : List Char → Except Fault α
  | [] => r.finish M k
  | c :: rest => do
    let r ← r.step M nesting k c
    run r (k + 1) rest

/-! ### Single steps -/

section Steps
variable {M nesting} {k : Nat} {c : Char} {v : α} {level : Level α} {outer : List (Level α)}

theorem step_operand_blank (h : Text.isBlank c = true) :
    step M nesting ⟨.operand, level, outer⟩ k c = .ok ⟨.operand, level, outer⟩ :=
  if_pos h

theorem step_operand_digit {d : Digit} (h : Digit.ofChar? c = some d) :
    step M nesting ⟨.operand, level, outer⟩ k c =
      M.numeral k [d] >>= fun v => .ok ⟨.numeral k [d] v, level, outer⟩ := by
  have hb := Digit.not_blank_of_ofChar? h
  have hp : c ≠ '(' := by
    rintro rfl
    cases h
  simp only [step, readOperand, hb, hp, h]
  rfl

/-- Nothing else begins an operand. -/
theorem step_operand_other (hb : Text.isBlank c = false) (hp : c ≠ '(')
    (hd : Digit.ofChar? c = none) :
    step M nesting ⟨.operand, level, outer⟩ k c = .error (.found
      (if isForeignDigit c then .invalidDigit else .unexpectedCharacter) k (some c)) := by
  simp only [step, readOperand, hb, hp, hd]
  cases isForeignDigit c <;> rfl

theorem step_operand_paren :
    step M nesting ⟨.operand, level, outer⟩ k '(' =
      if nesting ≤ outer.length then .error (.found .nestingTooDeep k (some '('))
      else .ok ⟨.operand, {}, level :: outer⟩ := rfl

theorem step_operand_open (h : outer.length < nesting) :
    step M nesting ⟨.operand, level, outer⟩ k '(' = .ok ⟨.operand, {}, level :: outer⟩ := by
  rw [step_operand_paren, if_neg (by omega)]

/-- How a character can stand where an operand has to start. -/
theorem operand_cases (c : Char) : Text.isBlank c = true ∨ c = '(' ∨
    (∃ d, Digit.ofChar? c = some d) ∨
    (Text.isBlank c = false ∧ c ≠ '(' ∧ Digit.ofChar? c = none) := by
  cases hb : Text.isBlank c with
  | true => exact .inl rfl
  | false =>
    by_cases hp : c = '('
    · exact .inr (.inl hp)
    · cases hd : Digit.ofChar? c with
      | some d => exact .inr (.inr (.inl ⟨d, rfl⟩))
      | none => exact .inr (.inr (.inr ⟨rfl, hp, rfl⟩))

variable {sum : Option (Pending α)}

theorem readOperator_blank (h : Text.isBlank c = true) :
    readOperator M v sum outer k c = .ok ⟨.operator v, ⟨sum, none⟩, outer⟩ :=
  if_pos h

theorem readOperator_multiplicative {op : Operator}
    (h : Precedence.multiplicative.operator? c = some op) :
    readOperator M v sum outer k c = .ok ⟨.operand, ⟨sum, some ⟨op, k, v⟩⟩, outer⟩ := by
  simp only [readOperator, Precedence.not_blank_of_operator? h, h]
  rfl

theorem readOperator_additive {op : Operator} (h : Precedence.additive.operator? c = some op) :
    readOperator M v sum outer k c =
      join M sum v >>= fun v => .ok ⟨.operand, ⟨some ⟨op, k, v⟩, none⟩, outer⟩ := by
  simp only [readOperator, Precedence.not_blank_of_operator? h,
    Precedence.multiplicative_of_additive h, h]
  rfl

theorem readOperator_other (hb : Text.isBlank c = false)
    (hm : Precedence.multiplicative.operator? c = none)
    (ha : Precedence.additive.operator? c = none) :
    readOperator M v sum outer k c = join M sum v >>= fun v => close M v outer k c := by
  simp only [readOperator, hb, hm, ha]
  rfl

theorem readOperator_close : readOperator M v sum outer k ')' =
    join M sum v >>= fun v => close M v outer k ')' :=
  readOperator_other (by decide) rfl rfl

/-- How a character can stand where an operator may follow. -/
theorem operator_cases (c : Char) : Text.isBlank c = true ∨
    (∃ op, Precedence.multiplicative.operator? c = some op) ∨
    (∃ op, Precedence.additive.operator? c = some op) ∨
    (Text.isBlank c = false ∧ Precedence.multiplicative.operator? c = none ∧
      Precedence.additive.operator? c = none) := by
  cases hb : Text.isBlank c with
  | true => exact .inl rfl
  | false =>
    cases hm : Precedence.multiplicative.operator? c with
    | some op => exact .inr (.inl ⟨op, rfl⟩)
    | none =>
      cases ha : Precedence.additive.operator? c with
      | some op => exact .inr (.inr (.inl ⟨op, rfl⟩))
      | none => exact .inr (.inr (.inr ⟨rfl, rfl, rfl⟩))

theorem step_operator_blank (hp : level.product = none) (h : Text.isBlank c = true) :
    step M nesting ⟨.operator v, level, outer⟩ k c = .ok ⟨.operator v, level, outer⟩ := by
  obtain ⟨sum, product⟩ := level
  cases hp
  exact readOperator_blank h

end Steps

/-! ### What a step does -/

/-- All that reading a character can do after a factor; `v` is the value of the term up to it. -/
inductive GoesOn (k : Nat) (v : α) (sum : Option (Pending α)) :
    List (Level α) → Char → Reading α → Prop
  | blank {outer : List (Level α)} {c : Char} (h : Text.isBlank c = true) :
    GoesOn k v sum outer c ⟨.operator v, ⟨sum, none⟩, outer⟩
  | product {outer : List (Level α)} {c : Char} {op : Operator}
    (h : Precedence.multiplicative.operator? c = some op) :
    GoesOn k v sum outer c ⟨.operand, ⟨sum, some ⟨op, k, v⟩⟩, outer⟩
  | sum {outer : List (Level α)} {c : Char} {op : Operator} {w : α}
    (h : Precedence.additive.operator? c = some op) (joined : join M sum v = .ok w) :
    GoesOn k v sum outer c ⟨.operand, ⟨some ⟨op, k, w⟩, none⟩, outer⟩
  | closing {level : Level α} {outer : List (Level α)} {w x : α} (joined : join M sum v = .ok w)
    (group : join M level.product (M.group w) = .ok x) :
    GoesOn k v sum (level :: outer) ')' ⟨.operator x, ⟨level.sum, none⟩, outer⟩

/-- All that reading a character can do. -/
inductive Steps (k : Nat) : Reading α → Char → Reading α → Prop
  | blank {level : Level α} {outer : List (Level α)} {c : Char} (h : Text.isBlank c = true) :
    Steps k ⟨.operand, level, outer⟩ c ⟨.operand, level, outer⟩
  | opening {level : Level α} {outer : List (Level α)} (room : outer.length < nesting) :
    Steps k ⟨.operand, level, outer⟩ '(' ⟨.operand, {}, level :: outer⟩
  | first {level : Level α} {outer : List (Level α)} {c : Char} {d : Digit} {v : α}
    (h : Digit.ofChar? c = some d) (value : M.numeral k [d] = .ok v) :
    Steps k ⟨.operand, level, outer⟩ c ⟨.numeral k [d] v, level, outer⟩
  | digit {place : Nat} {digits : List Digit} {v w : α} {level : Level α} {outer : List (Level α)}
    {c : Char} {d : Digit} (h : Digit.ofChar? c = some d)
    (value : M.numeral place (digits ++ [d]) = .ok w) :
    Steps k ⟨.numeral place digits v, level, outer⟩ c
      ⟨.numeral place (digits ++ [d]) w, level, outer⟩
  | afterNumeral {place : Nat} {digits : List Digit} {v w : α} {level : Level α}
    {outer : List (Level α)} {c : Char} {r : Reading α} (none : Digit.ofChar? c = none)
    (not_foreign : isForeignDigit c = false) (joined : join M level.product v = .ok w)
    (next : GoesOn M k w level.sum outer c r) :
    Steps k ⟨.numeral place digits v, level, outer⟩ c r
  | afterFactor {v : α} {level : Level α} {outer : List (Level α)} {c : Char} {r : Reading α}
    (next : GoesOn M k v level.sum outer c r) : Steps k ⟨.operator v, level, outer⟩ c r

section Inversion
variable {M nesting} {k : Nat} {c : Char}

theorem readOperator_eq_ok_iff {v : α} {sum : Option (Pending α)} {outer : List (Level α)}
    {r : Reading α} : readOperator M v sum outer k c = .ok r ↔ GoesOn M k v sum outer c r := by
  constructor
  · intro h
    rcases operator_cases c with hb | ⟨op, hm⟩ | ⟨op, ha⟩ | ⟨hb, hm, ha⟩
    · rw [readOperator_blank hb] at h
      cases h
      exact .blank hb
    · rw [readOperator_multiplicative hm] at h
      cases h
      exact .product hm
    · rw [readOperator_additive ha] at h
      obtain ⟨w, hw, h⟩ := exists_of_bind_eq_ok h
      cases h
      exact .sum ha hw
    · rw [readOperator_other hb hm ha] at h
      obtain ⟨w, hw, h⟩ := exists_of_bind_eq_ok h
      cases outer with
      | nil => cases h
      | cons level outer =>
        unfold close at h
        dsimp only at h
        split at h
        · rename_i hc
          obtain ⟨x, hx, h⟩ := exists_of_bind_eq_ok h
          cases h
          subst hc
          exact .closing hw hx
        · cases h
  · intro h
    cases h with
    | blank hb => exact readOperator_blank hb
    | product hm => exact readOperator_multiplicative hm
    | sum ha hw =>
      rw [readOperator_additive ha, hw]
      rfl
    | @closing level outer w x hw hx =>
      rw [readOperator_close, hw]
      show (join M level.product (M.group w) >>= fun v => _) = _
      rw [hx]
      rfl

theorem step_eq_ok_iff {r r' : Reading α} :
    r.step M nesting k c = .ok r' ↔ Steps M nesting k r c r' := by
  constructor
  · intro h
    obtain ⟨phase, level, outer⟩ := r
    cases phase with
    | operand =>
      rcases operand_cases c with hb | rfl | ⟨d, hd⟩ | ⟨hb, hp, hd⟩
      · rw [step_operand_blank hb] at h
        cases h
        exact .blank hb
      · rw [step_operand_paren] at h
        split at h
        · cases h
        · cases h
          exact .opening (by omega)
      · rw [step_operand_digit hd] at h
        obtain ⟨v, hv, h⟩ := exists_of_bind_eq_ok h
        cases h
        exact .first hd hv
      · rw [step_operand_other hb hp hd] at h
        cases h
    | operator v => exact .afterFactor (readOperator_eq_ok_iff.1 h)
    | numeral place digits v =>
      cases hd : Digit.ofChar? c with
      | some d =>
        simp only [step, hd] at h
        obtain ⟨w, hw, h⟩ := exists_of_bind_eq_ok h
        cases h
        exact .digit hd hw
      | none =>
        simp only [step, hd] at h
        split at h
        · cases h
        · rename_i hf
          obtain ⟨w, hw, h⟩ := exists_of_bind_eq_ok h
          exact .afterNumeral hd (Bool.eq_false_iff.2 hf) hw (readOperator_eq_ok_iff.1 h)
  · intro h
    cases h with
    | blank hb => exact step_operand_blank hb
    | opening hroom => exact step_operand_open hroom
    | first hd hv =>
      rw [step_operand_digit hd, hv]
      rfl
    | digit hd hw =>
      simp only [step, hd, hw]
      rfl
    | afterNumeral hd hf hw hnext =>
      simp only [step, hd, hf, hw, Bool.false_eq_true, if_false]
      exact readOperator_eq_ok_iff.2 hnext
    | afterFactor hnext => exact readOperator_eq_ok_iff.2 hnext

end Inversion

/-! ### Runs -/

theorem run_append (r : Reading α) (k : Nat) (u w : List Char) :
    r.run M nesting k (u ++ w) =
      r.feed M nesting k u >>= fun r => r.run M nesting (k + u.length) w := by
  induction u generalizing r k with
  | nil => rfl
  | cons c rest ih =>
    simp only [List.cons_append, feed, run, List.length_cons]
    cases r.step M nesting k c with
    | error f => rfl
    | ok r =>
      simp only [ok_bind]
      rw [ih, Nat.add_assoc, Nat.add_comm 1]

theorem run_eq_feed (r : Reading α) (k : Nat) (w : List Char) :
    r.run M nesting k w = r.feed M nesting k w >>= fun r => r.finish M (k + w.length) := by
  have h := run_append M nesting r k w []
  rw [List.append_nil] at h
  exact h

/-- A term that is not followed by a factor may as well be added first. -/
theorem run_operator_sum (v : α) (sum : Option (Pending α)) (outer : List (Level α)) (k : Nat)
    {w : List Char} (hw : ∀ c, w.head? = some c →
      Text.isBlank c = false ∧ Precedence.multiplicative.operator? c = none) :
    run M nesting ⟨.operator v, ⟨sum, none⟩, outer⟩ k w =
      join M sum v >>= fun v => run M nesting ⟨.operator v, {}, outer⟩ k w := by
  cases w with
  | nil =>
    simp only [run, finish]
    cases join M sum v <;> rfl
  | cons c rest =>
    obtain ⟨hb, hm⟩ := hw c rfl
    simp only [run, step]
    cases ha : Precedence.additive.operator? c with
    | some op =>
      simp only [readOperator_additive ha]
      cases join M sum v <;> rfl
    | none =>
      simp only [readOperator_other hb hm ha]
      cases join M sum v <;> rfl

/-- A numeral that is not followed by a digit may as well be ended first. -/
theorem run_settle (r : Reading α) (k : Nat) {w : List Char}
    (hw : ∀ c, w.head? = some c → Digit.ofChar? c = none ∧ isForeignDigit c = false) :
    r.run M nesting k w = r.settle M >>= fun r => r.run M nesting k w := by
  obtain ⟨phase, level, outer⟩ := r
  cases phase with
  | numeral place digits v =>
    cases w with
    | nil =>
      simp only [run, finish, settle]
      cases join M level.product v <;> rfl
    | cons c rest =>
      obtain ⟨hd, hf⟩ := hw c rfl
      simp only [run, step, settle, hd, hf]
      cases join M level.product v <;> rfl
  | _ => rfl

end Reading

/-! ### Chains -/

open Evaluation (Rule)

/-- The operators that may wait in its group where a rule begins. -/
def Evaluation.Rule.Fits {α : Type} : Rule → Level α → Prop
  | .expression, level => level = {}
  | .term, level => level.product = none
  | _, _ => True

namespace Precedence

/-- The rule for a chain of operators of this precedence. -/
def chain : Precedence → Rule
  | additive => .expression
  | multiplicative => .term

/-- The rule for the operands of such a chain. -/
def operand : Precedence → Rule
  | additive => .term
  | multiplicative => .factor

/-- An operator of this precedence begins to wait. -/
def wait {α : Type} (level : Level α) (p : Pending α) : Precedence → Level α
  | additive => ⟨some p, none⟩
  | multiplicative => ⟨level.sum, some p⟩

variable {p : Precedence}

theorem fits_wait {α : Type} (level : Level α) (w : Pending α) : p.operand.Fits (p.wait level w) := by
  cases p
  · exact rfl
  · trivial

theorem product_of_fits {α : Type} {level : Level α} (h : p.chain.Fits level) :
    level.product = none := by
  cases p
  · exact congrArg Level.product h
  · exact h

theorem fits_operand {α : Type} {level : Level α} (h : p.chain.Fits level) :
    p.operand.Fits level := by
  cases p
  · exact product_of_fits (p := additive) h
  · trivial

theorem step_operator {α : Type} {M : Meaning α} {nesting k : Nat} {c : Char} {v : α}
    {level : Level α} {outer : List (Level α)} {op : Operator} (h : p.chain.Fits level)
    (hop : p.operator? c = some op) :
    Reading.step M nesting ⟨.operator v, level, outer⟩ k c =
      .ok ⟨.operand, p.wait level ⟨op, k, v⟩, outer⟩ := by
  cases p with
  | additive =>
    cases h
    exact Reading.readOperator_additive hop
  | multiplicative => exact Reading.readOperator_multiplicative hop

end Precedence

end BaseThree
