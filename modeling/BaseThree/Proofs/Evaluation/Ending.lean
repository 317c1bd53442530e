import BaseThree.Evaluation

/-! How evaluations end.

`Ends m s Q E`: from the state `s`, `m` ends with a value and in a state of which `Q`
holds, or with a fault and in a state of which `E` holds; it fails in no other way. The
operations of the evaluator have rules that turn what they end in into what has to hold
before them, so that a rule of evaluation is followed step by step. For loops the rule is
an invariant that every further turn keeps while it shortens the text (`ends_loop`). -/
namespace BaseThree.Evaluation
variable {α β : Type} {Q : α → State → Prop} {E : Fault → State → Prop}

def Ends (m : Eval α) (s : State) (Q : α → State → Prop) (E : Fault → State → Prop) : Prop :=
  match m s with
  | .ok a t => Q a t
  | .error (.fault f) t => E f t
  | .error _ _ => False

theorem Ends.mono {Q' : α → State → Prop} {E' : Fault → State → Prop} {m : Eval α} {s : State}
    (h : Ends m s Q E) (hQ : ∀ a t, Q a t → Q' a t) (hE : ∀ f t, E f t → E' f t) :
    Ends m s Q' E' := by
  unfold Ends at h ⊢
  cases hm : m s with
  | ok a t =>
    rw [hm] at h
    exact hQ a t h
  | error e t =>
    rw [hm] at h
    cases e with
    | fault f => exact hE f t h
    | _ => exact h

theorem Ends.value {m : Eval α} {s t : State} {a : α} (h : Ends m s Q E) (hm : m s = .ok a t) :
    Q a t := by
  unfold Ends at h
  rw [hm] at h
  exact h

/-- What holds of the ends holds of the outcome. -/
theorem Ends.to_outcome {P : Except Failure α → State → Prop} {m : Eval α} {s : State}
    (h : Ends m s (fun a => P (.ok a)) (fun f => P (.error (.fault f)))) :
    P (outcome m s).1 (outcome m s).2 := by
  unfold Ends at h
  unfold outcome
  cases hm : m s with
  | ok a t =>
    rw [hm] at h
    exact h
  | error e t =>
    rw [hm] at h
    cases e with
    | fault f => exact h
    | _ => exact h.elim

/-! ### Single operations -/

@[simp] theorem ends_bind {R : β → State → Prop} (m : Eval α) (f : α → Eval β) (s : State) :
    Ends (m >>= f) s R E ↔ Ends m s (fun a t => Ends (f a) t R E) E := by
  unfold Ends
  rw [run_bind]
  cases m s with
  | ok a t => rfl
  | error e t => cases e <;> rfl

@[simp] theorem ends_fail (f : Fault) (s : State) :
    Ends (fail f : Eval α) s Q E ↔ E f {s with log := s.log ++ [.text (failureLine f)]} := Iff.rfl

@[simp] theorem ends_scanner {Q : Scanner → State → Prop} (s : State) :
    Ends scanner s Q E ↔ Q s.scanner s := Iff.rfl

@[simp] theorem ends_peek {Q : Option Char → State → Prop} (s : State) :
    Ends peek s Q E ↔ Q s.scanner.peek? s := Iff.rfl

@[simp] theorem ends_skipBlanks {Q : Unit → State → Prop} (s : State) :
    Ends skipBlanks s Q E ↔ Q () {s with scanner := s.scanner.skipBlanks} := Iff.rfl

@[simp] theorem ends_depth {Q : Nat → State → Prop} (s : State) :
    Ends depth s Q E ↔ Q s.depth s := Iff.rfl

@[simp] theorem ends_enterGroup {Q : Unit → State → Prop} (s : State) :
    Ends enterGroup s Q E ↔ Q () {s with depth := s.depth + 1} := Iff.rfl

theorem ends_advance {Q : Char → State → Prop} {s : State} {c : Char} {rest : List Char}
    (h : s.scanner.unread = c :: rest) :
    Ends advance s Q E ↔ Q c {s with scanner := ⟨c :: s.scanner.passed, rest⟩} := by
  have hn : s.scanner.next? = some (c, ⟨c :: s.scanner.passed, rest⟩) := by
    unfold Scanner.next?
    rw [h]
  unfold Ends advance
  rw [hn]

theorem ends_checked {Q : Int → State → Prop} (settings : Settings) (value : Int)
    (place : Scanner) (s : State) :
    Ends (checked settings value place) s Q E ↔
      if settings.inRange value then Q value {s with trace := s.trace.map (value :: ·)}
      else E (faultAt .overflow place none)
        {s with trace := s.trace.map (value :: ·)
                log := s.log ++ [.text (failureLine (faultAt .overflow place none))]} := by
  unfold Ends checked
  cases settings.inRange value <;> rfl

/-! ### Loops -/

/-- What holds after a turn: the loop's result, or the invariant and less to read. -/
def Turned (Inv Q : Int → State → Prop) (s : State) : Turn → State → Prop
  | .last v, t => Q v t
  | .next v, t => Inv v t ∧ t.scanner.unread.length < s.scanner.unread.length

theorem ends_loop {turn : Int → Eval Turn} (Inv : Int → State → Prop) {Q : Int → State → Prop}
    (hturn : ∀ v s, Inv v s → Ends (turn v) s (Turned Inv Q s) E) (budget : List Char) (v : Int)
    (s : State) (hv : Inv v s) (hb : s.scanner.unread.length ≤ budget.length) :
    Ends (loop turn budget v) s Q E := by
  induction budget generalizing v s with
  | nil =>
    rw [loop, ends_bind]
    refine (hturn v s hv).mono (fun a t h => ?_) fun _ _ h => h
    cases a with
    | last w => exact h
    | next w => exact absurd h.2 (by simp only [List.length_nil] at hb; omega)
  | cons c budget ih =>
    rw [loop, ends_bind]
    refine (hturn v s hv).mono (fun a t h => ?_) fun _ _ h => h
    cases a with
    | last w => exact h
    | next w => exact ih w t h.1 (by have := h.2; simp only [List.length_cons] at hb; omega)

end BaseThree.Evaluation
