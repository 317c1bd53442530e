import BaseThree.Parentheses
import BaseThree.Proofs.Reading.Evaluation
import BaseThree.Proofs.Settings

/-! How far rules go, and how deep.

A rule may begin in any state, in the middle of a text and with groups open that earlier rules
did not close. Whatever it reads, the scanner goes forward in its text, and the depth goes up and
down with the parentheses passed (`State.Moves`). A rule that ends with a value is as deep as where
it began (`Returns`); one that comes to a fault stands where the fault is, or past it if the fault
is one of arithmetic (`Halts`). There is no other end to it (`ends_call`). -/
namespace BaseThree.Evaluation

/-! ### Moves -/

/-- The groups counted as open, less those that the characters passed leave open. -/
def State.surplus (s : State) : Int := s.depth - balance s.scanner.passed

/-- The scanner went forward in its text. -/
structure Advances (s t : Scanner) : Prop where
  text : t.text = s.text
  forward : s.position ≤ t.position

/-- And the depth went with the parentheses it passed. -/
structure State.Moves (s t : State) : Prop extends Advances s.scanner t.scanner where
  surplus : t.surplus = s.surplus

section Moves
variable {s t u : State}

theorem State.Moves.refl (s : State) : s.Moves s := ⟨⟨rfl, Nat.le_refl _⟩, rfl⟩

theorem State.Moves.trans (h : s.Moves t) (h' : t.Moves u) : s.Moves u :=
  ⟨⟨h'.text.trans h.text, Nat.le_trans h.forward h'.forward⟩, h'.surplus.trans h.surplus⟩

/-- Whoever has come past a character has less to read. -/
theorem State.Moves.shorter (h : s.Moves t) (hlt : s.scanner.position < t.scanner.position) :
    t.scanner.unread.length < s.scanner.unread.length := by
  have hs := s.scanner.length_text
  have ht := t.scanner.length_text
  rw [h.text] at ht
  omega

theorem balance_take (s : Scanner) : balance (s.text.take s.position) = balance s.passed := by
  rw [s.take_position, balance_reverse]

/-- The depth has changed by what the characters between the two places come to. -/
theorem State.Moves.depth_eq (h : s.Moves t) :
    (t.depth : Int) = s.depth +
      balance ((s.scanner.text.take t.scanner.position).drop s.scanner.position) := by
  have hs := balance_take s.scanner
  have ht := balance_take t.scanner
  have hsurplus := h.surplus
  have hsplit := balance_append ((s.scanner.text.take t.scanner.position).take s.scanner.position)
    ((s.scanner.text.take t.scanner.position).drop s.scanner.position)
  rw [List.take_append_drop, List.take_take, Nat.min_eq_left h.forward] at hsplit
  rw [h.text] at ht
  unfold State.surplus at hsurplus
  omega

theorem balance_of_blank {b : List Char} (h : ∀ c ∈ b, Text.isBlank c = true) : balance b = 0 := by
  have hnot {c : Char} (hc : Text.isBlank c = false) : b.count c = 0 := by
    refine List.count_eq_zero.2 fun hm => ?_
    rw [h c hm] at hc
    cases hc
  rw [balance, hnot (by decide), hnot (by decide)]
  rfl

theorem moves_skipBlanks (s : State) : s.Moves {s with scanner := s.scanner.skipBlanks} := by
  have hblank : balance (s.scanner.unread.takeWhile Text.isBlank).reverse = 0 :=
    balance_of_blank fun c hc => by
      rw [List.mem_reverse] at hc
      exact List.all_eq_true.1 List.all_takeWhile c hc
  refine ⟨⟨Scanner.text_skipBlanks _, ?_⟩, ?_⟩
  · show s.scanner.passed.length ≤ s.scanner.skipBlanks.passed.length
    rw [Scanner.passed_skipBlanks, List.length_append]
    exact Nat.le_add_left _ _
  · show (s.depth : Int) - balance s.scanner.skipBlanks.passed = _
    rw [Scanner.passed_skipBlanks, balance_append, hblank, Int.zero_add]
    rfl

/-- A character is taken, and the depth becomes what it has to be. -/
theorem moves_advance {c : Char} {rest : List Char} {d : Nat}
    (hu : s.scanner.unread = c :: rest) (hd : (d : Int) = s.depth + balance [c]) :
    s.Moves {s with scanner := ⟨c :: s.scanner.passed, rest⟩, depth := d} := by
  refine ⟨⟨?_, Nat.le_succ _⟩, ?_⟩
  · simp [Scanner.text, hu]
  · have hpassed : balance (c :: s.scanner.passed) = balance [c] + balance s.scanner.passed :=
      balance_append [c] s.scanner.passed
    simp only [State.surplus, hpassed, hd]
    omega

end Moves

/-! ### Ends of rules -/

/-- A fault stands where the scanner is, one of arithmetic before it. -/
def Stands (f : Fault) (t : Scanner) : Prop :=
  ∃ p : Nat, f.position = some (p : Int) ∧
    if f.kind ∈ [.overflow, .divisionByZero] then p < t.position else p = t.position

/-- From the state `s` to a value, with every group closed that was opened on the way. -/
structure Returns (settings : Settings) (s : State) (v : Int) (t : State) : Prop where
  moves : s.Moves t
  depth : t.depth = s.depth
  inRange : settings.inRange v = true

/-- From the state `s` to a fault, the groups open there counted. -/
structure Halts (settings : Settings) (s : State) (f : Fault) (t : State) : Prop where
  moves : s.Moves t
  depth_le : s.depth ≤ t.depth
  nesting : t.depth ≤ settings.nesting
  stands : Stands f t.scanner

/-- `m` ends with a value or a fault, in such a state. -/
def Behaves (settings : Settings) (m : Eval Int) (s : State) : Prop :=
  Ends m s (Returns settings s) (Halts settings s)

section Rules
variable {settings : Settings} {s t u : State} {v : Int} {f : Fault}

theorem Returns.after (hm : s.Moves t) (hd : t.depth = s.depth) (h : Returns settings t v u) :
    Returns settings s v u :=
  ⟨hm.trans h.moves, h.depth.trans hd, h.inRange⟩

theorem Halts.after (hm : s.Moves t) (hd : s.depth ≤ t.depth) (h : Halts settings t f u) :
    Halts settings s f u :=
  ⟨hm.trans h.moves, Nat.le_trans hd h.depth_le, h.nesting, h.stands⟩

/-- A fault of form where the scanner is. -/
theorem halts_here {kind : Fault.Kind} (hs : s.depth ≤ settings.nesting)
    (hk : kind ∉ [.overflow, .divisionByZero]) (c : Option Char) (log : List Line) :
    Halts settings s (faultAt kind s.scanner c) {s with log := log} := by
  refine ⟨⟨⟨rfl, Nat.le_refl _⟩, rfl⟩, Nat.le_refl _, hs, s.scanner.position, rfl, ?_⟩
  show if kind ∈ [.overflow, .divisionByZero] then _ else _
  rw [if_neg hk]

theorem ends_checked_moves {place : Scanner} (hs : s.depth ≤ settings.nesting)
    (hp : place.position < s.scanner.position) (v : Int) :
    Behaves settings (checked settings v place) s := by
  unfold Behaves
  rw [ends_checked]
  split
  · rename_i hr
    exact ⟨⟨⟨rfl, Nat.le_refl _⟩, rfl⟩, rfl, hr⟩
  · exact ⟨⟨⟨rfl, Nat.le_refl _⟩, rfl⟩, Nat.le_refl _, hs, place.position, rfl, hp⟩

theorem ends_combine_moves {place : Scanner} (hs : s.depth ≤ settings.nesting)
    (hp : place.position < s.scanner.position) (op : Operator) (a b : Int) :
    Behaves settings (combine settings op a b place) s := by
  cases op with
  | plus | minus | times => exact ends_checked_moves hs hp _
  | divide =>
    unfold Behaves combine
    dsimp only
    split
    · exact ⟨⟨⟨rfl, Nat.le_refl _⟩, rfl⟩, Nat.le_refl _, hs, place.position, rfl, hp⟩
    · rename_i hb
      rw [quotient_of_ne_zero hb]
      exact ends_checked_moves hs hp _

/-- A loop goes on from what its turns leave. -/
theorem ends_loop_moves {turn : Int → Eval Turn}
    (hturn : ∀ v t, Returns settings s v t →
      Ends (turn v) t (Turned (Returns settings t) (Returns settings t) t) (Halts settings t))
    (h : Returns settings s v t) :
    Ends (loop turn t.scanner.unread v) t (Returns settings s) (Halts settings s) := by
  refine ends_loop (Returns settings s) (fun w u hw => ?_) _ v t h (Nat.le_refl _)
  refine (hturn w u hw).mono (fun a t' ha => ?_)
    fun f t' hf => hf.after hw.moves (Nat.le_of_eq hw.depth.symm)
  cases a with
  | last x => exact Returns.after hw.moves hw.depth ha
  | next x => exact ⟨Returns.after hw.moves hw.depth ha.1, ha.2⟩

/-! ### Numerals -/

theorem ends_numeralTurn_moves {place : Scanner} (hs : s.depth ≤ settings.nesting)
    (hp : place.position ≤ s.scanner.position) (hv : settings.inRange v = true) :
    Ends (numeralTurn settings place v) s
      (Turned (Returns settings s) (Returns settings s) s) (Halts settings s) := by
  unfold numeralTurn
  rw [ends_bind, ends_peek]
  cases hd : s.scanner.peek?.bind Digit.ofChar? with
  | none => exact ⟨.refl s, rfl, hv⟩
  | some d =>
    obtain ⟨c, hc, hd⟩ := Option.bind_eq_some_iff.1 hd
    obtain ⟨rest, hu⟩ := Scanner.unread_of_peek? hc
    have hparen : balance [c] = 0 := by
      refine balance_of_ne ?_ ?_ <;>
        · rintro rfl
          cases hd
    have hmoves : s.Moves {s with scanner := ⟨c :: s.scanner.passed, rest⟩} :=
      moves_advance hu (by rw [hparen, Int.add_zero])
    simp only [ends_bind, ends_advance hu]
    refine (ends_checked_moves (s := {s with scanner := ⟨c :: s.scanner.passed, rest⟩}) hs
      (Nat.lt_succ_of_le hp) _).mono (fun w t hw => ?_)
        fun f t hf => hf.after hmoves (Nat.le_refl _)
    have hreturns := hw.after hmoves rfl
    exact ⟨hreturns, hreturns.moves.shorter (Nat.lt_of_lt_of_le (Nat.lt_succ_self _)
      hw.moves.forward)⟩

theorem ends_numeral_moves (hs : s.depth ≤ settings.nesting) :
    Behaves settings (numeral settings) s := by
  unfold Behaves numeral
  rw [ends_bind, ends_scanner, ends_bind]
  refine (ends_loop_moves (fun v t h => ends_numeralTurn_moves (h.depth.symm ▸ hs) h.moves.forward
    h.inRange) ⟨.refl s, rfl, settings.inRange_zero⟩).mono (fun v t h => ?_) fun _ _ h => h
  rw [ends_bind, ends_scanner]
  split
  · exact h
  · split
    · exact (halts_here (h.depth.symm ▸ hs) (by decide) _ _).after h.moves
        (Nat.le_of_eq h.depth.symm)
    · exact h

/-! ### Chains -/

theorem ends_chainTurn_moves {p : Precedence} {operand : Eval Int}
    (hs : s.depth ≤ settings.nesting) (hv : settings.inRange v = true)
    (hoperand : ∀ t : State, t.depth = s.depth → Behaves settings operand t) :
    Ends (chainTurn settings p operand v) s
      (Turned (Returns settings s) (Returns settings s) s) (Halts settings s) := by
  have hskip := moves_skipBlanks s
  unfold chainTurn
  simp only [ends_bind, ends_skipBlanks, ends_scanner]
  cases hop : s.scanner.skipBlanks.peek?.bind p.operator? with
  | none => exact ⟨hskip, rfl, hv⟩
  | some op =>
    obtain ⟨c, hc, hop⟩ := Option.bind_eq_some_iff.1 hop
    obtain ⟨rest, hu⟩ := Scanner.unread_of_peek? hc
    have hparen : balance [c] = 0 := by
      refine balance_of_ne ?_ ?_ <;>
        · rintro rfl
          cases p <;> cases hop
    have hmoves : s.Moves {s with scanner := ⟨c :: s.scanner.skipBlanks.passed, rest⟩} :=
      hskip.trans (moves_advance (s := {s with scanner := s.scanner.skipBlanks}) hu
        (by rw [hparen, Int.add_zero]))
    simp only [ends_bind]
    rw [ends_advance (s := {s with scanner := s.scanner.skipBlanks}) hu]
    refine (hoperand {s with scanner := ⟨c :: s.scanner.skipBlanks.passed, rest⟩} rfl).mono
      (fun right t ht => ?_) fun f t hf => hf.after hmoves (Nat.le_refl _)
    have hplace : s.scanner.skipBlanks.position < t.scanner.position :=
      Nat.lt_of_lt_of_le (Nat.lt_succ_self _) ht.moves.forward
    refine (ends_combine_moves (ht.depth.symm ▸ hs) hplace op v right).mono (fun w u hw => ?_)
      fun f u hf => hf.after (hmoves.trans ht.moves) (Nat.le_of_eq ht.depth.symm)
    have hreturns := (hw.after ht.moves ht.depth).after hmoves rfl
    refine ⟨hreturns, hreturns.moves.shorter ?_⟩
    exact Nat.lt_of_le_of_lt hskip.forward (Nat.lt_of_lt_of_le hplace hw.moves.forward)

theorem ends_chain_moves {p : Precedence} {operand : Eval Int} (hs : s.depth ≤ settings.nesting)
    (hoperand : ∀ t : State, t.depth = s.depth → Behaves settings operand t) :
    Behaves settings (chain settings p operand) s := by
  unfold Behaves chain
  rw [ends_bind]
  refine (hoperand s rfl).mono (fun v t hv => ?_) fun _ _ h => h
  rw [ends_bind, ends_scanner]
  exact ends_loop_moves (fun w u h => ends_chainTurn_moves (h.depth.symm ▸ hs) h.inRange
    fun t' ht => hoperand t' (ht.trans h.depth)) hv

/-! ### Factors -/

/-- The closing parenthesis takes back the level that its group has counted. -/
theorem ends_closeGroup_moves {d : Nat} (hd : s.depth = d + 1) (hs : s.depth ≤ settings.nesting)
    (hv : settings.inRange v = true) :
    Ends (closeGroup v) s
      (fun w t => s.Moves t ∧ t.depth = d ∧ settings.inRange w = true) (Halts settings s) := by
  have hskip := moves_skipBlanks s
  unfold closeGroup
  simp only [ends_bind, ends_skipBlanks, ends_scanner]
  split
  · rename_i hc
    obtain ⟨rest, hu⟩ := Scanner.unread_of_peek? hc
    simp only [ends_bind]
    rw [ends_advance (s := {s with scanner := s.scanner.skipBlanks}) hu]
    have hdepth : ((s.depth - 1 : Nat) : Int) = s.depth + balance [')'] := by
      rw [show balance [')'] = -1 from rfl]
      omega
    have hmoves := hskip.trans
      (moves_advance (s := {s with scanner := s.scanner.skipBlanks}) hu hdepth)
    exact ⟨⟨⟨hmoves.text, hmoves.forward⟩, hmoves.surplus⟩, by show s.depth - 1 = d; omega, hv⟩
  · exact (halts_here (s := {s with scanner := s.scanner.skipBlanks}) hs (by decide) _ _).after
      hskip (Nat.le_refl _)

theorem ends_group_moves {inner : Eval Int} {rest : List Char}
    (hu : s.scanner.unread = '(' :: rest) (hs : s.depth ≤ settings.nesting)
    (hinner : s.depth < settings.nesting → ∀ t : State, t.depth = s.depth + 1 →
      Behaves settings inner t) :
    Behaves settings (group settings inner s.scanner) s := by
  unfold Behaves group
  rw [ends_bind, ends_depth]
  split
  · exact halts_here hs (by decide) _ _
  · rename_i hn
    have hlt : s.depth < settings.nesting := by omega
    have hmoves : s.Moves {s with scanner := ⟨'(' :: s.scanner.passed, rest⟩
                                  depth := s.depth + 1} := moves_advance hu rfl
    simp only [ends_bind, ends_enterGroup]
    rw [ends_advance (s := {s with depth := s.depth + 1}) hu]
    refine (hinner hlt {s with scanner := ⟨'(' :: s.scanner.passed, rest⟩
                               depth := s.depth + 1} rfl).mono
      (fun v t hv => ?_) fun f t hf => hf.after hmoves (Nat.le_succ _)
    refine (ends_closeGroup_moves hv.depth (hv.depth ▸ hlt) hv.inRange).mono
      (fun w u hw => ?_) fun f u hf => ?_
    · exact ⟨hmoves.trans (hv.moves.trans hw.1), hw.2.1, hw.2.2⟩
    · exact (hf.after hv.moves (Nat.le_of_eq hv.depth.symm)).after hmoves (Nat.le_succ _)

theorem ends_factor_moves {inner number : Eval Int} (hs : s.depth ≤ settings.nesting)
    (hinner : s.depth < settings.nesting → ∀ t : State, t.depth = s.depth + 1 →
      Behaves settings inner t)
    (hnumber : ∀ t : State, t.depth = s.depth → Behaves settings number t) :
    Behaves settings (factor settings inner number) s := by
  have hskip := moves_skipBlanks s
  have hafter {m : Eval Int} (h : Behaves settings m {s with scanner := s.scanner.skipBlanks}) :
      Ends m {s with scanner := s.scanner.skipBlanks} (Returns settings s) (Halts settings s) :=
    h.mono (fun _ _ hv => hv.after hskip rfl) fun _ _ hf => hf.after hskip (Nat.le_refl _)
  have hhere (kind : Fault.Kind) (hk : kind ∉ [.overflow, .divisionByZero]) (c : Option Char) :
      Behaves settings (fail (faultAt kind s.scanner.skipBlanks c))
        {s with scanner := s.scanner.skipBlanks} :=
    halts_here (s := {s with scanner := s.scanner.skipBlanks}) hs hk c _
  unfold Behaves factor
  simp only [ends_bind, ends_skipBlanks, ends_scanner]
  split
  · exact hafter (hhere _ (by decide) none)
  · rename_i hc
    obtain ⟨rest, hu⟩ := Scanner.unread_of_peek? hc
    exact hafter (ends_group_moves (s := {s with scanner := s.scanner.skipBlanks}) hu hs hinner)
  · split
    · exact hafter (hnumber {s with scanner := s.scanner.skipBlanks} rfl)
    · split
      · exact hafter (hhere _ (by decide) _)
      · exact hafter (hhere _ (by decide) _)

/-! ### Calls -/

/-- **A rule ends with a value or a fault, whatever state it begins in**, and either way the depth
has gone with the parentheses it has read. -/
theorem ends_call (calls : Nat) (r : Rule) (s : State) (hs : s.depth ≤ settings.nesting)
    (hcalls : 3 * (settings.nesting - s.depth) + r.height ≤ calls) :
    Behaves settings (call settings calls r) s := by
  -- A group takes three calls and one level: what is left of both stays in proportion.
  induction calls generalizing r s with
  | zero => cases r <;> exact absurd hcalls (by simp [Rule.height])
  | succ calls ih =>
    cases r with
    | expression =>
      refine ends_chain_moves (p := .additive) hs fun t hd => ih .term t (by omega) ?_
      simp only [Rule.height, hd] at hcalls ⊢
      omega
    | term =>
      refine ends_chain_moves (p := .multiplicative) hs fun t hd => ih .factor t (by omega) ?_
      simp only [Rule.height, hd] at hcalls ⊢
      omega
    | factor =>
      refine ends_factor_moves hs (fun hn t hd => ih .expression t (by omega) ?_)
        (fun t hd => ih .number t (by omega) ?_)
      · simp only [Rule.height, hd] at hcalls ⊢
        omega
      · simp only [Rule.height, hd] at hcalls ⊢
        omega
    | number => exact ends_numeral_moves hs

theorem ends_rule (r : Rule) (s : State) (hs : s.depth ≤ settings.nesting) :
    Behaves settings (rule settings r) s := by
  refine ends_call _ r s hs ?_
  unfold callsFor
  cases r <;> simp only [Rule.height] <;> omega

/-! ### Whole texts -/

/-- After an expression only blanks are passed over, and its value is the result. -/
theorem ends_finish_value (text : List Char) (v : Int) (s : State) :
    Ends (finish text v) s (fun w _ => w = v) (fun _ _ => True) := by
  unfold finish
  simp only [ends_bind, ends_skipBlanks, ends_scanner]
  split
  · exact rfl
  · exact trivial

/-- A text ends with a value in range or a fault. -/
theorem ends_wholeWithin {calls : Nat} (h : callsFor settings ≤ calls) (text : List Char) :
    Ends (wholeWithin settings calls text) (.start text)
      (fun v _ => settings.inRange v = true) (fun _ _ => True) := by
  unfold wholeWithin
  split
  · exact trivial
  · rw [ends_bind]
    refine (ends_call calls .expression (.start text) (Nat.zero_le _) h).mono (fun v t hv => ?_)
      fun _ _ _ => trivial
    exact (ends_finish_value text v t).mono (fun w _ hw => hw ▸ hv.inRange) fun _ _ h => h

end Rules

end BaseThree.Evaluation
