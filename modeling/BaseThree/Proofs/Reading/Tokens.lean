import BaseThree.Proofs.Reading.Completeness
import BaseThree.Proofs.Reading.Outline
import BaseThree.Proofs.Reading.Places
import BaseThree.Proofs.Token

/-! Reading token by token.

Between tokens a reading has nothing left to decide: a numeral that ends there has ended,
whether a blank, another token or nothing follows. So a text is read by reading its tokens
(`run_of_splits`), and its blanks count for no more than the offsets of the tokens. -/
namespace BaseThree

/-- The same characters, one by one at offsets that stand for each other. -/
structure Token.Matches (P : Nat → Nat → Prop) (s t : Token) : Prop where
  text : s.text = t.text
  places : ∀ i < s.text.length, P (s.offset + i) (t.offset + i)

namespace Reading
variable {α : Type} {M : Meaning α} {nesting : Nat}

/-- Takes tokens and then the end of the text, at offset `stop`. -/
def runTokens (M : Meaning α) (nesting : Nat) (r : Reading α) (stop : Nat) :
    List Token → Except Fault α
  | [] => r.finish M stop
  | t :: rest => do
    let r ← r.settle M
    let r ← r.feed M nesting t.offset t.text
    runTokens M nesting r stop rest

/-- No operator of the higher precedence waits after a factor. -/
def Joined (r : Reading α) : Prop := r.phase.stage = .operator → r.level.product = none

theorem joined_operand {level : Level α} {outer : List (Level α)} :
    Joined ⟨.operand, level, outer⟩ := by
  intro hs
  cases hs

theorem joined_numeral {place : Nat} {digits : List Digit} {v : α} {level : Level α}
    {outer : List (Level α)} : Joined ⟨.numeral place digits v, level, outer⟩ := by
  intro hs
  cases hs

theorem joined_goesOn {v : α} {sum : Option (Pending α)} {outer : List (Level α)} {k : Nat}
    {c : Char} {r : Reading α} (h : GoesOn M k v sum outer c r) : r.Joined := by
  cases h with
  | blank | closing => exact fun _ => rfl
  | product | sum => exact joined_operand

theorem joined_step {r r' : Reading α} {k : Nat} {c : Char}
    (h : r.step M nesting k c = .ok r') : r'.Joined := by
  cases step_eq_ok_iff.1 h with
  | blank | opening => exact joined_operand
  | first | digit => exact joined_numeral
  | afterNumeral _ _ _ hnext => exact joined_goesOn hnext
  | afterFactor hnext => exact joined_goesOn hnext

theorem joined_feed {r r' : Reading α} (hr : r.Joined) {k : Nat} {w : List Char}
    (h : r.feed M nesting k w = .ok r') : r'.Joined := by
  induction w generalizing r k with
  | nil =>
    cases h
    exact hr
  | cons c rest ih =>
    obtain ⟨s, hs, hrest⟩ := exists_of_bind_eq_ok h
    exact ih (joined_step hs) hrest

/-! ### Between tokens -/

theorem stage_goesOn {v : α} {sum : Option (Pending α)} {outer : List (Level α)} {k : Nat}
    {c : Char} {r : Reading α} (h : GoesOn M k v sum outer c r) : r.phase.stage ≠ .numeral := by
  cases h <;> exact Stage.noConfusion

/-- A numeral goes on only with digits. -/
theorem stage_step {r r' : Reading α} {k : Nat} {c : Char} (h : r.step M nesting k c = .ok r')
    (hc : Digit.ofChar? c = none) : r'.phase.stage ≠ .numeral := by
  cases step_eq_ok_iff.1 h with
  | blank | opening => exact Stage.noConfusion
  | first hd | digit hd =>
    rw [hc] at hd
    cases hd
  | afterNumeral _ _ _ hnext => exact stage_goesOn hnext
  | afterFactor hnext => exact stage_goesOn hnext

theorem settle_of_stage_ne {r : Reading α} (h : r.phase.stage ≠ .numeral) :
    r.settle M = .ok r := by
  obtain ⟨phase, level, outer⟩ := r
  cases phase with
  | numeral => exact absurd rfl h
  | _ => rfl

theorem stage_settle {r r' : Reading α} (h : r.settle M = .ok r') :
    r'.phase.stage ≠ .numeral := by
  obtain ⟨phase, level, outer⟩ := r
  cases phase with
  | numeral place digits v =>
    obtain ⟨w, -, h⟩ := exists_of_bind_eq_ok h
    cases h
    exact nofun
  | operand | operator =>
    cases h
    exact nofun

theorem joined_settle {r r' : Reading α} (hr : r.Joined) (h : r.settle M = .ok r') :
    r'.Joined := by
  obtain ⟨phase, level, outer⟩ := r
  cases phase with
  | numeral place digits v =>
    obtain ⟨w, -, h⟩ := exists_of_bind_eq_ok h
    cases h
    exact fun _ => rfl
  | operand | operator =>
    cases h
    exact hr

/-- A blank does nothing but end a numeral. -/
theorem step_blank {r : Reading α} (hr : r.Joined) {k : Nat} {c : Char}
    (h : Text.isBlank c = true) : r.step M nesting k c = r.settle M := by
  obtain ⟨phase, level, outer⟩ := r
  cases phase with
  | operand => exact step_operand_blank h
  | operator v => exact step_operator_blank (hr rfl) h
  | numeral place digits v =>
    simp only [step, settle, Digit.ofChar?_of_blank h, isForeignDigit_of_blank h,
      readOperator_blank h]
    rfl

theorem finish_settle (r : Reading α) (k : Nat) :
    r.finish M k = r.settle M >>= fun r => r.finish M k := by
  obtain ⟨phase, level, outer⟩ := r
  cases phase with
  | numeral place digits v =>
    simp only [settle, finish]
    cases join M level.product v <;> rfl
  | _ => rfl

theorem runTokens_settle (r : Reading α) (stop : Nat) (ts : List Token) :
    runTokens M nesting r stop ts = r.settle M >>= fun r => runTokens M nesting r stop ts := by
  cases ts with
  | nil => exact finish_settle r stop
  | cons t rest =>
    simp only [runTokens]
    cases hs : r.settle M with
    | error f => rfl
    | ok s => rw [ok_bind, ok_bind, settle_of_stage_ne (stage_settle hs), ok_bind]

/-- **A text is read by reading its tokens.** -/
theorem run_of_splits {k : Nat} {w : List Char} {ts : List Token} (h : Token.Splits k w ts)
    {r : Reading α} (hr : r.Joined) (hw : r.phase.stage = .numeral → NotDigit w) :
    r.run M nesting k w = runTokens M nesting r (k + w.length) ts := by
  induction h generalizing r with
  | done => rfl
  | @blank k c w ts hb _ ih =>
    rw [run, step_blank hr hb, runTokens_settle]
    cases hs : r.settle M with
    | error f => rfl
    | ok s =>
      rw [ok_bind, ok_bind, ih (joined_settle hr hs) fun hn => absurd hn (stage_settle hs),
        List.length_cons, Nat.add_assoc, Nat.add_comm 1]
  | @mark k c w ts hb hc _ ih =>
    have hdigit := isDigit_eq_false_iff.1 hc
    rw [run_settle M nesting r k (notDigit_cons hdigit), runTokens]
    cases hs : r.settle M with
    | error f => rfl
    | ok s =>
      rw [ok_bind, ok_bind, run, feed]
      cases hstep : s.step M nesting k c with
      | error f => rfl
      | ok s' =>
        rw [ok_bind, ok_bind, feed, ok_bind,
          ih (joined_step hstep) fun hn => absurd hn (stage_step hstep hdigit.1),
          List.length_cons, Nat.add_assoc, Nat.add_comm 1]
  | @digits k ds w ts hne hds hlongest _ ih =>
    have hstage : r.phase.stage ≠ .numeral := by
      intro hn
      obtain ⟨c, rest, rfl⟩ := List.exists_cons_of_ne_nil hne
      have hc := hds c (List.mem_cons_self ..)
      rw [isDigit_eq_false_iff.2 (hw hn c rfl)] at hc
      cases hc
    rw [run_append, runTokens, settle_of_stage_ne hstage, ok_bind]
    cases hs : r.feed M nesting k ds with
    | error f => rfl
    | ok s =>
      rw [ok_bind, ok_bind,
        ih (joined_feed hr hs) fun _ c hc => isDigit_eq_false_iff.1 (hlongest c hc),
        List.length_append, Nat.add_assoc]

/-! ### The same tokens at other offsets -/

variable {P : Nat → Nat → Prop} {settings : Settings}

theorem agrees_runTokens {ss ts : List Token} (hst : List.Forall₂ (Token.Matches P) ss ts)
    {stop stop' : Nat} (hstop : P stop stop') {r s : Reading Int} (h : r.Matches P s) :
    Agrees P Eq (runTokens (.values settings) nesting r stop ss)
      (runTokens (.values settings) nesting s stop' ts) := by
  induction hst generalizing r s with
  | nil => exact agrees_finish h hstop
  | @cons t t' _ _ ht _ ih =>
    refine agrees_bind (agrees_settle h) fun r' s' h' => ?_
    rw [← ht.text]
    exact agrees_bind (agrees_feed h' ht.places) fun _ _ h'' => ih h''

end Reading

end BaseThree
