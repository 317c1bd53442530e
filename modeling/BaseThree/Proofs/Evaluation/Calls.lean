import BaseThree.Proofs.Evaluation.Safety
import BaseThree.Proofs.Evaluation.Lookahead

/-! How many rules an evaluation has active at once.

A rule that is allowed more calls does the same, unless it has run out of those it had
(`extends_call`). An evaluation never runs out of three for every level of the nesting limit and
four more, and it can need them all: inside of as many groups as may be open, a numeral is read
by the last of them (`exhausts_call`). The length of the text does not matter, for the loops in
the rules call one operand after the other, and each of their turns reads something. -/
namespace BaseThree.Evaluation
variable {α β : Type}

/-! ### More calls -/

/-- `m'` does what `m` does wherever `m` does not run out of calls. -/
def Extends (m m' : Eval α) : Prop :=
  ∀ s, (outcome m s).1 ≠ .error .callDepth → outcome m' s = outcome m s

theorem Extends.refl (m : Eval α) : Extends m m := fun _ _ => rfl

theorem extends_bind {m m' : Eval α} {f f' : α → Eval β} (hm : Extends m m')
    (hf : ∀ a, Extends (f a) (f' a)) : Extends (m >>= f) (m' >>= f') := by
  intro s hs
  rw [outcome_bind] at hs
  cases hout : outcome m s with
  | mk r t =>
    rw [hout] at hs
    have hm' : outcome m' s = (r, t) := by
      rw [← hout]
      refine hm s fun hr => ?_
      rw [hout] at hr
      cases hr
      exact hs rfl
    rw [outcome_bind, outcome_bind, hm', hout]
    cases r with
    | ok a => exact hf a t hs
    | error e => rfl

section Rules
variable {settings : Settings}

variable (settings) in
theorem stepwise_extends : Stepwise settings settings Extends where
  nesting := rfl
  pure _ := .refl _
  bind := extends_bind
  look rest := extends_bind (.refl _) fun k => rest k k (.refl k)
  peek := .refl _
  skipBlanks := .refl _
  advance := .refl _
  depth := .refl _
  enterGroup := .refl _
  leaveGroup := .refl _
  fail _ _ _ := .refl _
  checked _ _ := .refl _

/-- More calls change nothing unless fewer were not enough. -/
theorem extends_call {calls calls' : Nat} (h : calls ≤ calls') (r : Rule) :
    Extends (call settings calls r) (call settings calls' r) := by
  obtain ⟨more, rfl⟩ := Nat.exists_eq_add_of_le h
  refine related_call ((stepwise_extends settings).parametric (.refl _) (.refl _)) more ?_ calls r
  exact fun _ _ hs => absurd rfl hs

theorem extends_wholeWithin {calls calls' : Nat} (h : calls ≤ calls') (text : List Char) :
    Extends (wholeWithin settings calls text) (wholeWithin settings calls' text) := by
  unfold wholeWithin
  split
  · exact .refl _
  · exact extends_bind (extends_call h .expression) fun _ => .refl _

/-! ### Too few calls -/

/-- A numeral inside of `k` groups, none of them closed. -/
def nested (k : Nat) : List Char := List.replicate k '(' ++ ['0']

theorem isBlankText_nested (k : Nat) : isBlankText (nested k) = false := by
  unfold isBlankText nested
  rw [List.all_append, show ['0'].all Text.isBlank = false from by decide, Bool.and_false]

theorem outcome_bind_error {m : Eval α} {f : α → Eval β} {e : Failure} {s : State}
    (h : (outcome m s).1 = .error e) : (outcome (m >>= f) s).1 = .error e := by
  rw [outcome_bind]
  cases hout : outcome m s with
  | mk r t =>
    rw [hout] at h
    cases h
    rfl

theorem outcome_skipBlanks {s : State} {c : Char} {rest : List Char}
    (hu : s.scanner.unread = c :: rest) (hc : Text.isBlank c = false) :
    outcome skipBlanks s = (.ok (), s) := by
  have hskip : s.scanner.skipBlanks = s.scanner := by
    refine Scanner.skipBlanks_of_stops fun c' hc' => ?_
    rw [Scanner.peek?, hu] at hc'
    cases hc'
    exact hc
  show (Except.ok (), {s with scanner := s.scanner.skipBlanks}) = _
  rw [hskip]

theorem outcome_scanner (f : Scanner → Eval α) (s : State) :
    outcome (scanner >>= f) s = outcome (f s.scanner) s := outcome_bind scanner f s

/-- A factor that begins with a digit is a numeral. -/
theorem outcome_factor_digit {inner number : Eval Int} {s : State} {c : Char} {rest : List Char}
    {d : Digit} (hu : s.scanner.unread = c :: rest) (hd : Digit.ofChar? c = some d) :
    outcome (factor settings inner number) s = outcome number s := by
  have hpeek : s.scanner.peek? = some c := congrArg List.head? hu
  unfold factor
  rw [outcome_bind, outcome_skipBlanks hu (Digit.not_blank_of_ofChar? hd)]
  dsimp only
  rw [outcome_scanner]
  split
  · rename_i he
    cases hpeek.symm.trans he
  · rename_i he
    cases hpeek.symm.trans he
    cases hd
  · rename_i he
    cases hpeek.symm.trans he
    rw [if_pos (Option.isSome_of_eq_some hd)]

theorem outcome_group {inner : Eval Int} {s : State} {rest : List Char}
    (hu : s.scanner.unread = '(' :: rest) (hs : s.depth < settings.nesting) (place : Scanner) :
    outcome (group settings inner place) s = outcome (inner >>= closeGroup)
      {s with scanner := ⟨'(' :: s.scanner.passed, rest⟩, depth := s.depth + 1} := by
  unfold group
  show outcome (if settings.nesting ≤ s.depth then _ else _) s = _
  rw [if_neg (Nat.not_le.2 hs)]
  show outcome (advance >>= fun _ => inner >>= closeGroup) {s with depth := s.depth + 1} = _
  rw [outcome_bind, outcome_advance (s := {s with depth := s.depth + 1}) hu]

/-- One that begins with a parenthesis is a group. -/
theorem outcome_factor_open {inner number : Eval Int} {s : State} {rest : List Char}
    (hu : s.scanner.unread = '(' :: rest) (hs : s.depth < settings.nesting) :
    outcome (factor settings inner number) s = outcome (inner >>= closeGroup)
      {s with scanner := ⟨'(' :: s.scanner.passed, rest⟩, depth := s.depth + 1} := by
  have hpeek : s.scanner.peek? = some '(' := congrArg List.head? hu
  unfold factor
  rw [outcome_bind, outcome_skipBlanks hu (by decide)]
  dsimp only
  rw [outcome_scanner]
  split
  · rename_i he
    cases hpeek.symm.trans he
  · exact outcome_group hu hs _
  · rename_i hne he
    cases hpeek.symm.trans he
    exact absurd rfl hne

/-- Each group takes three calls, and none of them ends before the numeral is read. -/
theorem exhausts_call (calls k : Nat) (r : Rule) (s : State) (hu : s.scanner.unread = nested k)
    (hs : s.depth + k ≤ settings.nesting) (hr : r ≠ .number ∨ k = 0)
    (hcalls : calls < 3 * k + r.height) :
    (outcome (call settings calls r) s).1 = .error .callDepth := by
  induction calls generalizing k r s with
  | zero => rfl
  | succ calls ih =>
    cases r with
    | expression =>
      refine outcome_bind_error (ih k .term s hu hs (.inl (by decide)) ?_)
      simp only [Rule.height] at hcalls ⊢
      omega
    | term =>
      refine outcome_bind_error (ih k .factor s hu hs (.inl (by decide)) ?_)
      simp only [Rule.height] at hcalls ⊢
      omega
    | factor =>
      simp only [Rule.height] at hcalls
      rw [call]
      cases k with
      | zero =>
        rw [outcome_factor_digit hu rfl]
        exact ih 0 .number s hu hs (.inr rfl) (by simp only [Rule.height]; omega)
      | succ k =>
        rw [outcome_factor_open hu (by omega)]
        refine outcome_bind_error (ih k .expression _ rfl ?_ (.inl (by decide)) ?_)
        · show s.depth + 1 + k ≤ settings.nesting
          omega
        · simp only [Rule.height]
          omega
    | number =>
      have hk : k = 0 := hr.resolve_left fun hne => hne rfl
      simp only [Rule.height] at hcalls
      omega

/-! ### Turns of loops -/

/-- From `s` to `t` something has been read, and what is left is the rest of what was unread. -/
structure State.Shortens (s t : State) : Prop where
  suffix : t.scanner.unread <:+ s.scanner.unread
  left : t.left < s.left

theorem shortens_of_left {s t : State} (htext : t.scanner.text = s.scanner.text)
    (hleft : t.left < s.left) : s.Shortens t := by
  have hs : s.scanner.unread <:+ s.scanner.text := List.suffix_append _ _
  have ht : t.scanner.unread <:+ s.scanner.text := by
    rw [← htext]
    exact List.suffix_append _ _
  exact ⟨List.suffix_of_suffix_length_le ht hs (Nat.le_of_lt hleft), hleft⟩

theorem shortens_chainTurn {p : Precedence} {calls : Nat} {r : Rule} {v w : Int} {s t : State}
    (h : outcome (chainTurn settings p (call settings calls r) v) s = (.ok (.next w), t)) :
    s.Shortens t := by
  have hoperand : ∀ s, Foresees 0 [] (call settings calls r) (call settings calls r) s :=
    foresees_call settings calls r
  have htext := (related_chainTurn (stepwise_foresees 0 [] settings) p hoperand v s).text
  rw [h] at htext
  exact shortens_of_left htext (left_chainTurn hoperand h)

theorem shortens_numeralTurn {place : Scanner} {v w : Int} {s t : State}
    (h : outcome (numeralTurn settings place v) s = (.ok (.next w), t)) : s.Shortens t := by
  have htext := (related_numeralTurn (stepwise_foresees 0 [] settings) (.refl place) v s).text
  rw [h] at htext
  exact shortens_of_left htext (left_numeralTurn h)

end Rules

/-- **Three rules for every level of nesting and four more are all that an evaluation needs.**
It does not run out of these calls, and with more it ends in the same way and in the same state;
with one less there is a text for which they are too few. No loop takes a turn that leaves as much
to read as there was, so none of them goes on for ever. -/
theorem calls_for_nesting (settings : Settings) :
    callsFor settings = 3 * settings.nesting + 4 ∧
    callsFor settings ≤ 754 ∧ (settings.nesting = 250 → callsFor settings = 754) ∧
    (∀ text, evaluate settings text ≠ .error .callDepth ∧
      evaluate settings text ≠ .error .noProgress) ∧
    (∀ (text : List Char) (calls : Nat), callsFor settings ≤ calls →
      outcome (wholeWithin settings calls text) (.start text) =
        outcome (whole settings text) (.start text)) ∧
    (∀ calls, calls < callsFor settings →
      ∃ text, (outcome (wholeWithin settings calls text) (.start text)).1 = .error .callDepth) ∧
    (∀ (p : Precedence) (calls : Nat) (r : Rule) (v w : Int) (s t : State),
      outcome (chainTurn settings p (call settings calls r) v) s = (.ok (.next w), t) →
      s.Shortens t) ∧
    ∀ (place : Scanner) (v w : Int) (s t : State),
      outcome (numeralTurn settings place v) s = (.ok (.next w), t) → s.Shortens t := by
  have hnesting := settings.nesting_le
  unfold Settings.nestingLimit at hnesting
  refine ⟨rfl, by unfold callsFor; omega, fun h => by unfold callsFor; omega, fun text => ?_,
    fun text calls h => ?_, fun calls h => ⟨nested settings.nesting, ?_⟩,
    fun _ _ _ _ _ _ _ => shortens_chainTurn, fun _ _ _ _ _ => shortens_numeralTurn⟩
  · have hsafe := safe_evaluate settings text
    exact ⟨hsafe.ne_callDepth, hsafe.ne_noProgress⟩
  · exact extends_wholeWithin h text (.start text) (safe_whole settings text).ne_callDepth
  · have hcall : (outcome (call settings calls .expression)
        (.start (nested settings.nesting))).1 = .error .callDepth :=
      exhausts_call calls settings.nesting .expression _ rfl (Nat.le_of_eq (Nat.zero_add _))
        (.inl (by decide)) h
    unfold wholeWithin
    rw [isBlankText_nested]
    exact outcome_bind_error hcall

/-- With two levels the second group is the last, and ten calls are as many as a hundred. -/
theorem calls_for_open_groups : callsFor {nesting := 2} ≤ 100 ∧
    outcome (wholeWithin {nesting := 2} 100 "((1/0".toList) (.start "((1/0".toList) =
      outcome (whole {nesting := 2} "((1/0".toList) (.start "((1/0".toList) :=
  ⟨by decide, (calls_for_nesting {nesting := 2}).2.2.2.2.1 "((1/0".toList 100 (by decide)⟩

end BaseThree.Evaluation
