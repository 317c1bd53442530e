import BaseThree.Proofs.Evaluation.Depth
import BaseThree.Session

/-! Sessions keep count.

`session_keeps_count`: whatever is asked of a session, and however much of it failed, the scanner
stays in its text and never goes back, the depth stays within the limit, and what a rule does to
the depth is what the parentheses it has read come to. So as long as only rules are asked for, the
depth is the balance of all that has been read. -/
namespace BaseThree.Session
open Evaluation
variable {settings : Settings} {text : List Char} {s : State}

/-! ### Single requests -/

theorem advances_perform (s : Scanner) (c : Scanner.Command) : Advances s (s.perform c).2 := by
  refine ⟨Scanner.text_perform s c, ?_⟩
  cases c with
  | advance =>
    simp only [Scanner.perform]
    split
    · exact Nat.le_refl _
    · rename_i hnext
      obtain ⟨passed, unread⟩ := s
      cases unread with
      | nil => cases hnext
      | cons d rest =>
        cases hnext
        exact Nat.le_succ _
  | skipBlanks => exact (moves_skipBlanks {scanner := s}).forward
  | _ => exact Nat.le_refl _

/-- A command is for the scanner alone. -/
theorem step_scan (settings : Settings) (s : State) (c : Scanner.Command) :
    (step settings s (.scan c)).2 = {s with scanner := (s.scanner.perform c).2} := by
  unfold step
  dsimp only
  split <;> rfl

/-- A rule returns or halts. -/
theorem step_rule (r : Rule) (hs : s.depth ≤ settings.nesting) :
    (∃ v t, step settings s (.rule r) = (.ok (.value v), t) ∧ Returns settings s v t) ∨
    ∃ f t, step settings s (.rule r) = (.error (.fault f), t) ∧ Halts settings s f t := by
  have hends := ends_rule r s hs
  have hstep : step settings s (.rule r) = ((outcome (rule settings r) s).1.map .value,
    (outcome (rule settings r) s).2) := rfl
  unfold Behaves Ends at hends
  rw [hstep]
  unfold outcome
  cases hrun : rule settings r s with
  | ok v t =>
    rw [hrun] at hends
    exact .inl ⟨v, t, rfl, hends⟩
  | error e t =>
    rw [hrun] at hends
    cases e with
    | fault f => exact .inr ⟨f, t, rfl, hends⟩
    | _ => exact hends.elim

/-- Either way the depth has gone with the parentheses read, and stays within the limit. -/
theorem moves_rule (r : Rule) (hs : s.depth ≤ settings.nesting) :
    s.Moves (step settings s (.rule r)).2 ∧
      (step settings s (.rule r)).2.depth ≤ settings.nesting := by
  rcases step_rule r hs with ⟨v, t, hstep, h⟩ | ⟨f, t, hstep, h⟩
  · rw [hstep]
    exact ⟨h.moves, h.depth.symm ▸ hs⟩
  · rw [hstep]
    exact ⟨h.moves, h.nesting⟩

/-! ### Whole sessions -/

/-- What holds between any two requests of a session over a text. -/
structure Sound (settings : Settings) (text : List Char) (s : State) : Prop where
  text : s.scanner.text = text
  depth_le : s.depth ≤ settings.nesting

/-- What one request does. -/
structure Keeps (settings : Settings) (s : State) (request : Request) (reply : Reply) (t : State) :
    Prop where
  forward : s.scanner.position ≤ t.scanner.position
  deeper : s.depth ≤ t.depth
  /-- Commands for the scanner open and close nothing. -/
  scan : ∀ c, request = .scan c → t.depth = s.depth
  /-- Rules count the parentheses that they read, whether they succeed or not. -/
  rule : ∀ r, request = .rule r → (t.depth : Int) =
    s.depth + balance ((s.scanner.text.take t.scanner.position).drop s.scanner.position)
  value : ∀ r answer, request = .rule r → reply = .ok answer → t.depth = s.depth
  /-- A fault is where the scanner has stopped; one of arithmetic is before that. -/
  fault : ∀ r e, request = .rule r → reply = .error e → ∃ f, e = .fault f ∧
    ∃ p : Nat, f.position = some (p : Int) ∧
      if f.kind ∈ [.overflow, .divisionByZero] then p < t.scanner.position
      else p = t.scanner.position

theorem keeps_step (hs : s.depth ≤ settings.nesting) (request : Request) :
    Keeps settings s request (step settings s request).1 (step settings s request).2 := by
  cases request with
  | scan c =>
    rw [step_scan]
    exact ⟨(advances_perform s.scanner c).forward, Nat.le_refl _, fun _ _ => rfl, nofun, nofun,
      nofun⟩
  | rule r =>
    rcases step_rule r hs with ⟨v, t, hstep, h⟩ | ⟨f, t, hstep, h⟩
    · rw [hstep]
      exact ⟨h.moves.forward, Nat.le_of_eq h.depth.symm, nofun, fun _ _ => h.moves.depth_eq,
        fun _ _ _ _ => h.depth, nofun⟩
    · rw [hstep]
      refine ⟨h.moves.forward, h.depth_le, nofun, fun _ _ => h.moves.depth_eq, nofun,
        fun _ e _ he => ⟨f, ?_, h.stands⟩⟩
      cases he
      rfl

theorem sound_start (settings : Settings) (text : List Char) : Sound settings text (.start text) :=
  ⟨rfl, Nat.zero_le _⟩

theorem Sound.step (h : Sound settings text s) (request : Request) :
    Sound settings text (step settings s request).2 := by
  cases request with
  | scan c =>
    rw [step_scan]
    exact ⟨(advances_perform s.scanner c).text.trans h.text, h.depth_le⟩
  | rule r =>
    obtain ⟨hmoves, hnesting⟩ := moves_rule r h.depth_le
    exact ⟨hmoves.text.trans h.text, hnesting⟩

theorem Sound.final (h : Sound settings text s) (requests : List Request) :
    Sound settings text (final settings s requests) := by
  induction requests generalizing s with
  | nil => exact h
  | cons request rest ih => exact ih (h.step request)

theorem Sound.surplus_final (h : Sound settings text s) {requests : List Request}
    (hrules : ∀ request ∈ requests, ∃ r, request = .rule r) :
    (Session.final settings s requests).surplus = s.surplus := by
  induction requests generalizing s with
  | nil => rfl
  | cons request rest ih =>
    obtain ⟨r, rfl⟩ := hrules request (List.mem_cons_self ..)
    rw [Session.final, ih (h.step _) fun q hq => hrules q (List.mem_cons_of_mem _ hq)]
    exact (moves_rule r h.depth_le).1.surplus

/-- **A session keeps count of its parentheses over every failure.** -/
theorem session_keeps_count (settings : Settings) (text : List Char) (before : List Request) :
    (final settings (.start text) before).scanner.text = text ∧
    (final settings (.start text) before).depth ≤ settings.nesting ∧
    (final settings (.start text) before).scanner.position ≤ text.length ∧
    (∀ request, Keeps settings (final settings (.start text) before) request
      (step settings (final settings (.start text) before) request).1
      (step settings (final settings (.start text) before) request).2) ∧
    ((∀ request ∈ before, ∃ r, request = .rule r) →
      ((final settings (.start text) before).depth : Int) =
        balance (text.take (final settings (.start text) before).scanner.position)) := by
  have hstart := sound_start settings text
  have hsound := hstart.final before
  refine ⟨hsound.text, hsound.depth_le, ?_, fun request => keeps_step hsound.depth_le request,
    fun hrules => ?_⟩
  · have hlength := (final settings (.start text) before).scanner.length_text
    rw [hsound.text] at hlength
    omega
  -- Only a command for the scanner can take a parenthesis that is not counted.
  · have hsurplus := hstart.surplus_final hrules
    have htake := balance_take (final settings (.start text) before).scanner
    rw [hsound.text] at htake
    have hzero : (State.start text).surplus = 0 := rfl
    unfold State.surplus at hsurplus hzero
    omega

/-- The first expression leaves two groups open, and the second, which begins inside of them,
stops at the parenthesis that would close one. -/
theorem session_in_open_groups :
    (final .standard (.start "((1 2)".toList) [.rule .expression, .rule .expression]).depth = 2 ∧
      balance ("((1 2)".toList.take 5) = 2 := by
  have hrules : ∀ request ∈ [Request.rule .expression, .rule .expression],
      ∃ r, request = .rule r := by simp
  have hcount := (session_keeps_count .standard "((1 2)".toList
    [.rule .expression, .rule .expression]).2.2.2.2 hrules
  have hposition : (final .standard (.start "((1 2)".toList)
      [.rule .expression, .rule .expression]).scanner.position = 5 := by decide +kernel
  rw [hposition] at hcount
  have hbalance : balance ("((1 2)".toList.take 5) = 2 := by decide
  exact ⟨by omega, hbalance⟩

end BaseThree.Session
