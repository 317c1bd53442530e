import BaseThree.Proofs.Evaluation.Refinement

/-! How far an evaluation looks.

Two runs of a rule: the second has other characters, any number of them, in the place of the
last `n` of the text (`State.graft`). As long as the first run ends with more than `n` characters
unread, the next one among them is the last that it can have looked at, and it is the same for
the second. So the second run ends as the first does (`foresees_call`): no rule looks farther
ahead than one character, in whatever state it begins and however it ends. -/
namespace BaseThree

/-- Other characters in the place of the last `n`. -/
def graft (n : Nat) (z u : List Char) : List Char := u.take (u.length - n) ++ z

theorem graft_cons {n : Nat} {z u : List Char} (c : Char) (h : n ≤ u.length) :
    graft n z (c :: u) = c :: graft n z u := by
  unfold graft
  rw [List.length_cons, Nat.succ_sub h, List.take_succ_cons, List.cons_append]

theorem length_graft (n : Nat) (z u : List Char) :
    (graft n z u).length = u.length - n + z.length := by
  unfold graft
  rw [List.length_append, List.length_take, Nat.min_eq_left (Nat.sub_le _ _)]

namespace Scanner
variable {n : Nat} {z : List Char}

def graft (n : Nat) (z : List Char) (s : Scanner) : Scanner :=
  {s with unread := BaseThree.graft n z s.unread}

theorem unread_graft {s : Scanner} {c : Char} {rest : List Char} (h : s.unread = c :: rest)
    (hn : n < s.unread.length) :
    (s.graft n z).unread = c :: BaseThree.graft n z rest := by
  show BaseThree.graft n z s.unread = _
  rw [h] at hn ⊢
  exact graft_cons c (Nat.le_of_lt_succ hn)

theorem peek?_graft {s : Scanner} (hn : n < s.unread.length) :
    (s.graft n z).peek? = s.peek? := by
  obtain ⟨c, rest, hu⟩ := List.exists_cons_of_length_pos (Nat.zero_lt_of_lt hn)
  unfold peek?
  rw [unread_graft hu hn, hu]
  rfl

theorem skipBlanks_graft {s : Scanner} (hn : n < s.skipBlanks.unread.length) :
    (s.graft n z).skipBlanks = s.skipBlanks.graft n z := by
  obtain ⟨passed, unread⟩ := s
  unfold skipBlanks at hn ⊢
  show skipFrom passed (BaseThree.graft n z unread) = _
  induction unread generalizing passed with
  | nil => exact absurd hn (Nat.not_lt_zero n)
  | cons c rest ih =>
    simp only [skipFrom] at hn ⊢
    by_cases hc : Text.isBlank c = true
    · rw [if_pos hc] at hn ⊢
      have hle : n ≤ rest.length := by
        rw [skipFrom_unread] at hn
        exact Nat.le_of_lt (Nat.lt_of_lt_of_le hn (List.dropWhile_suffix _).length_le)
      rw [graft_cons c hle, skipFrom, if_pos hc]
      exact ih _ hn
    · rw [if_neg hc] at hn ⊢
      rw [graft_cons c (Nat.le_of_lt_succ hn), skipFrom, if_neg hc]
      exact congrArg (Scanner.mk passed) (graft_cons c (Nat.le_of_lt_succ hn)).symm

end Scanner

namespace Evaluation
variable {α β : Type} {n : Nat} {z : List Char}

/-- The number of characters not read. -/
def State.left (s : State) : Nat := s.scanner.unread.length

def State.graft (n : Nat) (z : List Char) (s : State) : State :=
  {s with scanner := s.scanner.graft n z}

/-- From the state `s`, `m` goes forward in its text, and if it leaves more than `n` characters,
`m'` ends with other characters in the place of those as `m` does. -/
structure Foresees (n : Nat) (z : List Char) (m m' : Eval α) (s : State) : Prop where
  text : (outcome m s).2.scanner.text = s.scanner.text
  forward : (outcome m s).2.left ≤ s.left
  same : n < (outcome m s).2.left →
    outcome m' (s.graft n z) = ((outcome m s).1, (outcome m s).2.graft n z)

variable {s : State}

theorem outcome_bind_ok {m : Eval α} {f : α → Eval β} {b : β} {t : State}
    (h : outcome (m >>= f) s = (.ok b, t)) :
    ∃ a u, outcome m s = (.ok a, u) ∧ outcome (f a) u = (.ok b, t) := by
  rw [outcome_bind] at h
  cases hm : outcome m s with
  | mk r u =>
    rw [hm] at h
    cases r with
    | ok a => exact ⟨a, u, rfl, h⟩
    | error e => cases h

/-- What does not matter unless more than `n` characters are left. -/
theorem foresees_congr {m m' m'' : Eval α} (h : n < s.left → m' = m'')
    (hm : Foresees n z m m'' s) : Foresees n z m m' s := by
  refine ⟨hm.text, hm.forward, fun hn => ?_⟩
  rw [h (Nat.lt_of_lt_of_le hn hm.forward)]
  exact hm.same hn

theorem foresees_bind {m m' : Eval α} {f f' : α → Eval β} (hm : Foresees n z m m' s)
    (hf : ∀ a t, outcome m s = (.ok a, t) → Foresees n z (f a) (f' a) t) :
    Foresees n z (m >>= f) (m' >>= f') s := by
  obtain ⟨htext, hforward, hsame⟩ := hm
  cases hout : outcome m s with
  | mk r t =>
    rw [hout] at htext hforward hsame
    cases r with
    | error e =>
      have hbind : outcome (m >>= f) s = (.error e, t) := by rw [outcome_bind, hout]
      refine ⟨by rw [hbind]; exact htext, by rw [hbind]; exact hforward, fun hn => ?_⟩
      rw [hbind] at hn ⊢
      rw [outcome_bind, hsame hn]
    | ok a =>
      obtain ⟨htext', hforward', hsame'⟩ := hf a t hout
      have hbind : outcome (m >>= f) s = outcome (f a) t := by rw [outcome_bind, hout]
      refine ⟨by rw [hbind]; exact htext'.trans htext,
        by rw [hbind]; exact Nat.le_trans hforward' hforward, fun hn => ?_⟩
      rw [hbind] at hn ⊢
      rw [outcome_bind, hsame (Nat.lt_of_lt_of_le hn hforward')]
      exact hsame' hn

theorem left_le {m m' : Eval α} {t : State} {r : Except Failure α}
    (h : Foresees n z m m' s) (ht : outcome m s = (r, t)) : t.left ≤ s.left := by
  have hle := h.forward
  rw [ht] at hle
  exact hle

/-! ### Single operations -/

/-- What neither moves the scanner nor looks at it. -/
theorem foresees_of_blind {m : Eval α}
    (h : ∀ k, outcome m {s with scanner := k} =
      ((outcome m s).1, {(outcome m s).2 with scanner := k})) : Foresees n z m m s := by
  have hscanner : (outcome m s).2.scanner = s.scanner :=
    congrArg (fun out => out.2.scanner) (h s.scanner)
  refine ⟨congrArg Scanner.text hscanner, Nat.le_of_eq (congrArg (·.unread.length) hscanner),
    fun _ => ?_⟩
  unfold State.graft
  rw [h, hscanner]

theorem foresees_pure (a : α) : Foresees n z (pure a) (pure a) s :=
  foresees_of_blind fun _ => rfl

theorem foresees_checked (settings : Settings) (value : Int) (place : Scanner) :
    Foresees n z (checked settings value place) (checked settings value place) s :=
  foresees_of_blind fun _ => by
    unfold outcome checked
    cases settings.inRange value <;> rfl

/-- A scanner like that of the state: the one that the second run has there, if more than `n`
characters are left. -/
theorem exists_alike (n : Nat) (z : List Char) (s : State) :
    ∃ k', s.scanner.Alike k' ∧ (n < s.left → (s.graft n z).scanner = k') := by
  by_cases hn : n < s.left
  · exact ⟨(s.graft n z).scanner, ⟨rfl, (Scanner.peek?_graft hn).symm⟩, fun _ => rfl⟩
  · exact ⟨s.scanner, .refl s.scanner, fun h => absurd h hn⟩

theorem foresees_look {f f' : Scanner → Eval α}
    (h : ∀ k', s.scanner.Alike k' → (n < s.left → (s.graft n z).scanner = k') →
      Foresees n z (f s.scanner) (f' k') s) :
    Foresees n z (scanner >>= f) (scanner >>= f') s := by
  obtain ⟨k', hk, hgraft⟩ := exists_alike n z s
  obtain ⟨htext, hforward, hsame⟩ := h k' hk hgraft
  refine ⟨htext, hforward, fun hn => ?_⟩
  show outcome (f' (s.graft n z).scanner) (s.graft n z) = _
  rw [hgraft (Nat.lt_of_lt_of_le hn hforward)]
  exact hsame hn

theorem foresees_peek : Foresees n z peek peek s := by
  refine ⟨rfl, Nat.le_refl _, fun hn => ?_⟩
  have hpeek : (s.scanner.graft n z).peek? = s.scanner.peek? := Scanner.peek?_graft hn
  show (Except.ok (s.scanner.graft n z).peek?, s.graft n z) = _
  rw [hpeek]
  rfl

theorem foresees_skipBlanks : Foresees n z skipBlanks skipBlanks s := by
  refine ⟨Scanner.text_skipBlanks s.scanner, ?_, fun hn => ?_⟩
  · show s.scanner.skipBlanks.unread.length ≤ s.scanner.unread.length
    rw [Scanner.unread_skipBlanks]
    exact (List.dropWhile_suffix _).length_le
  · show (Except.ok (), {s with scanner := (s.scanner.graft n z).skipBlanks}) = _
    rw [Scanner.skipBlanks_graft hn]
    rfl

theorem outcome_advance_end (h : s.scanner.unread = []) :
    outcome advance s = (.error (.endOfText ⟨s.scanner.position⟩), s) := by
  simp only [outcome, advance, Scanner.next?, h]

theorem foresees_advance : Foresees n z advance advance s := by
  cases hu : s.scanner.unread with
  | nil =>
    have hout := outcome_advance_end hu
    refine ⟨by rw [hout], Nat.le_of_eq (by rw [hout]), fun hn => ?_⟩
    rw [hout, State.left, hu] at hn
    exact absurd hn (Nat.not_lt_zero n)
  | cons c rest =>
    have hout := outcome_advance hu
    refine ⟨?_, ?_, fun hn => ?_⟩
    · rw [hout]
      simp [Scanner.text, hu]
    · rw [hout]
      show rest.length ≤ s.scanner.unread.length
      rw [hu]
      exact Nat.le_succ _
    · rw [hout] at hn ⊢
      have hlt : n < s.scanner.unread.length := by
        rw [hu]
        exact Nat.lt_succ_of_lt hn
      exact outcome_advance (s := s.graft n z) (Scanner.unread_graft hu hlt)

theorem left_advance {t : State} {c : Char} (h : outcome advance s = (.ok c, t)) :
    t.left < s.left := by
  cases hu : s.scanner.unread with
  | nil =>
    rw [outcome_advance_end hu] at h
    cases h
  | cons d rest =>
    rw [outcome_advance hu] at h
    cases h
    show rest.length < s.scanner.unread.length
    rw [hu]
    exact Nat.lt_succ_self _

/-! ### Rules -/

section Rules
variable {settings : Settings}

variable (n z settings) in
theorem stepwise_foresees : Stepwise settings settings (fun m m' => ∀ s, Foresees n z m m' s) where
  nesting := rfl
  pure a _ := foresees_pure a
  bind first rest s := foresees_bind (first s) fun a t _ => rest a t
  look rest s := foresees_look fun k' hk _ => rest s.scanner k' hk s
  peek _ := foresees_peek
  skipBlanks _ := foresees_skipBlanks
  advance _ := foresees_advance
  depth _ := foresees_of_blind fun _ => rfl
  enterGroup _ := foresees_of_blind fun _ => rfl
  leaveGroup _ := foresees_of_blind fun _ => rfl
  fail _ _ _ _ := foresees_of_blind fun _ => rfl
  checked v k _ := foresees_checked settings v k

/-- A turn that asks for another has read an operator. -/
theorem left_chainTurn {p : Precedence} {operand operand' : Eval Int} {v w : Int} {s t : State}
    (h : ∀ s, Foresees n z operand operand' s)
    (ht : outcome (chainTurn settings p operand v) s = (.ok (.next w), t)) : t.left < s.left := by
  unfold chainTurn at ht
  obtain ⟨_, s₁, hskip, ht⟩ := outcome_bind_ok ht
  obtain ⟨place, s₂, hplace, ht⟩ := outcome_bind_ok ht
  cases hplace
  split at ht
  · cases ht
  · obtain ⟨c, s₃, hadvance, ht⟩ := outcome_bind_ok ht
    obtain ⟨right, s₄, hright, ht⟩ := outcome_bind_ok ht
    obtain ⟨x, s₅, hcombine, ht⟩ := outcome_bind_ok ht
    cases ht
    have hstep := stepwise_foresees n z settings
    calc t.left ≤ s₄.left := left_le (related_combine hstep (.refl _) _ _ _ s₄) hcombine
      _ ≤ s₃.left := left_le (h s₃) hright
      _ < s₁.left := left_advance hadvance
      _ ≤ s.left := left_le (foresees_skipBlanks (n := n) (z := z)) hskip

/-- And one of a numeral has read a digit. -/
theorem left_numeralTurn {place : Scanner} {v w : Int} {s t : State}
    (ht : outcome (numeralTurn settings place v) s = (.ok (.next w), t)) : t.left < s.left := by
  unfold numeralTurn at ht
  obtain ⟨c, s₁, hpeek, ht⟩ := outcome_bind_ok ht
  cases hpeek
  split at ht
  · cases ht
  · obtain ⟨c, s₂, hadvance, ht⟩ := outcome_bind_ok ht
    obtain ⟨x, s₃, hchecked, ht⟩ := outcome_bind_ok ht
    cases ht
    calc t.left ≤ s₂.left := left_le (foresees_checked (n := 0) (z := []) _ _ _) hchecked
      _ < s.left := left_advance hadvance

/-! ### Loops -/

/-- The budgets of the two runs may differ, for neither is ever used up. -/
theorem foresees_loop {turn turn' : Int → Eval Turn}
    (hturn : ∀ v s, Foresees n z (turn v) (turn' v) s)
    (hnext : ∀ v w s t, outcome (turn v) s = (.ok (.next w), t) → t.left < s.left)
    (budget budget' : List Char) (v : Int) (s : State) (hb : s.left ≤ budget.length)
    (hb' : (s.graft n z).left ≤ budget'.length) :
    Foresees n z (loop turn budget v) (loop turn' budget' v) s := by
  induction budget generalizing budget' v s with
  | nil =>
    unfold loop
    refine foresees_bind (hturn v s) fun a t ht => ?_
    cases a with
    | last w => exact foresees_pure w
    | next w =>
      have hlt := hnext v w s t ht
      exact absurd hlt (by simp only [List.length_nil] at hb; omega)
  | cons c budget ih =>
    unfold loop
    refine foresees_bind (hturn v s) fun a t ht => ?_
    cases a with
    | last w => exact foresees_pure w
    | next w =>
      have hlt := hnext v w s t ht
      have hle : t.left ≤ budget.length := by
        rw [List.length_cons] at hb
        omega
      show Foresees n z (loop turn budget w) _ t
      by_cases hn : n < t.left
      · have hleft : (t.graft n z).left < (s.graft n z).left := by
          have hs : (s.graft n z).left = s.left - n + z.length := length_graft ..
          have ht : (t.graft n z).left = t.left - n + z.length := length_graft ..
          omega
        cases budget' with
        | nil => exact absurd hb' (by simp only [List.length_nil]; omega)
        | cons c' budget' => exact ih budget' w t hle (by rw [List.length_cons] at hb'; omega)
      · exact foresees_congr (fun h => absurd h hn)
          (ih (t.graft n z).scanner.unread w t hle (Nat.le_refl _))

theorem foresees_rounds {turn turn' : Scanner → Int → Eval Turn}
    (hturn : ∀ k k', k.Alike k' → ∀ v s, Foresees n z (turn k v) (turn' k' v) s)
    (hnext : ∀ k v w s t, outcome (turn k v) s = (.ok (.next w), t) → t.left < s.left)
    (v : Int) (s : State) :
    Foresees n z (scanner >>= fun k => loop (turn k) k.unread v)
      (scanner >>= fun k => loop (turn' k) k.unread v) s := by
  refine foresees_look fun k' hk hgraft => ?_
  have hbudget (hn : n < s.left) : loop (turn' k') k'.unread v =
      loop (turn' k') (s.graft n z).scanner.unread v := by
    rw [hgraft hn]
  exact foresees_congr hbudget
    (foresees_loop (hturn _ k' hk) (hnext _) _ _ v s (Nat.le_refl _) (Nat.le_refl _))

variable (n z settings) in
theorem parametric_foresees :
    Parametric settings settings (fun m m' => ∀ s, Foresees n z m m' s) where
  toStepwise := stepwise_foresees n z settings
  chainLoop p _ _ hoperand := foresees_rounds
    (fun _ _ _ => related_chainTurn (stepwise_foresees n z settings) p hoperand)
    fun _ _ _ _ _ => left_chainTurn hoperand
  numeralLoop := foresees_rounds
    (fun _ _ hk => related_numeralTurn (stepwise_foresees n z settings) hk)
    (fun _ _ _ _ _ => left_numeralTurn) 0

variable (settings) in
/-- **No rule looks more than one character ahead.** -/
theorem foresees_call (calls : Nat) (r : Rule) (s : State) :
    Foresees n z (call settings calls r) (call settings calls r) s :=
  related_call (parametric_foresees n z settings) 0 (fun _ _ => foresees_of_blind fun _ => rfl)
    calls r s

end Rules

end Evaluation

end BaseThree
