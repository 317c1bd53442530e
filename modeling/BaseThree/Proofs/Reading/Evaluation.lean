import BaseThree.Proofs.Character
import BaseThree.Proofs.Evaluation.Ending
import BaseThree.Proofs.Numeral
import BaseThree.Proofs.Reading
import BaseThree.Proofs.Scanner

/-! Evaluating is reading.

The rules of evaluation keep what they have seen of a text in their pending calls, a
`Reading` keeps it in its levels. `Reads r m s` says that the two agree on one call: a
reading that has come to where the rule begins, and one that goes on from where the
rule has ended with the value it has found, come to the same end. The rules call each
other as long as the nesting limit lets groups open, which is what the limit on active
calls pays for (`reads_call`).

`evaluate_eq_readText`: the outcome of a text that is not blank is that of reading it. -/
namespace BaseThree.Evaluation
open Reading

/-! ### Where rules begin and end -/

/-- What a rule leaves unread does not begin with anything that it would have read. -/
def Rule.Stops : Rule → Scanner → Prop
  | .expression, s => ∀ c, s.peek? = some c → Text.isBlank c = false ∧
      Precedence.multiplicative.operator? c = none ∧ Precedence.additive.operator? c = none
  | .term, s => ∀ c, s.peek? = some c → Text.isBlank c = false ∧
      Precedence.multiplicative.operator? c = none
  | _, _ => True

/-- A numeral is only asked for where a digit is. -/
def Rule.Starts : Rule → Scanner → Prop
  | .number, s => ∃ c rest d, s.unread = c :: rest ∧ Digit.ofChar? c = some d
  | _, _ => True

/-- How many rules a rule has active at once, without those in groups. -/
def Rule.height : Rule → Nat
  | .expression => 4
  | .term => 3
  | .factor => 2
  | .number => 1

variable (settings : Settings)

/-- Reads what a scanner has not read. -/
def readFrom (r : Reading Int) (s : Scanner) : Except Fault Int :=
  r.run (.values settings) settings.nesting s.position s.unread

/-- Goes on after a factor. -/
def resume (level : Level Int) (outer : List (Level Int)) (v : Int) (s : Scanner) :
    Except Fault Int := do
  let v ← join (.values settings) level.product v
  readFrom settings ⟨.operator v, ⟨level.sum, none⟩, outer⟩ s

/-- A rule went from the state `s` to the value `v` and the state `t`, as a reading does. -/
structure Passed (r : Rule) (level : Level Int) (outer : List (Level Int)) (s : State) (v : Int)
    (t : State) : Prop where
  stops : r.Stops t.scanner
  depth : t.depth = s.depth
  shorter : t.scanner.unread.length < s.scanner.unread.length
  reading : readFrom settings ⟨.operand, level, outer⟩ s.scanner =
    resume settings level outer v t.scanner

def Reads (r : Rule) (m : Eval Int) (s : State) : Prop :=
  ∀ (level : Level Int) (outer : List (Level Int)), r.Fits level → outer.length = s.depth →
    Ends m s (Passed settings r level outer s)
      (fun f _ => readFrom settings ⟨.operand, level, outer⟩ s.scanner = .error f)

variable {settings}

theorem readFrom_cons {r : Reading Int} {s : Scanner} {c : Char} {rest : List Char}
    (h : s.unread = c :: rest) :
    readFrom settings r s = r.step (.values settings) settings.nesting s.position c >>=
      fun r => readFrom settings r ⟨c :: s.passed, rest⟩ := by
  unfold readFrom
  rw [h]
  rfl

theorem readFrom_nil {r : Reading Int} {s : Scanner} (h : s.unread = []) :
    readFrom settings r s = r.finish (.values settings) s.position := by
  unfold readFrom
  rw [h]
  rfl

/-- Blanks between tokens change nothing. -/
theorem readFrom_skipBlanks {r : Reading Int}
    (h : ∀ k c, Text.isBlank c = true → r.step (.values settings) settings.nesting k c = .ok r)
    (s : Scanner) : readFrom settings r s.skipBlanks = readFrom settings r s := by
  obtain ⟨passed, unread⟩ := s
  unfold Scanner.skipBlanks
  induction unread generalizing passed with
  | nil => rfl
  | cons c rest ih =>
    simp only [Scanner.skipFrom]
    split
    · rename_i hc
      rw [ih (c :: passed), readFrom_cons (s := ⟨passed, c :: rest⟩) rfl, h _ c hc, ok_bind]
    · rfl

/-! ### Values -/

theorem ends_checked_of_ranged {Q : Int → State → Prop} {E : Fault → State → Prop} {v : Int}
    {place : Scanner} {s : State}
    (hok : Grammar.Tree.ranged settings place.position v = .ok v →
      Q v {s with trace := s.trace.map (v :: ·)})
    (herror : ∀ f t, Grammar.Tree.ranged settings place.position v = .error f → E f t) :
    Ends (checked settings v place) s Q E := by
  rw [ends_checked]
  unfold Grammar.Tree.ranged at hok herror
  split
  · rename_i h
    exact hok (if_pos h)
  · rename_i h
    exact herror _ _ (if_neg h)

/-- A digit of a numeral, and what reading makes of it. -/
theorem ends_numeralTurn {place : Scanner} {digits : List Digit} {v : Int}
    (hv : v = Numeral.ofDigits digits) (t : State) :
    Ends (numeralTurn settings place v) t
      (fun a t' => match a with
        | .last w => w = v ∧ t' = t ∧ t.scanner.peek?.bind Digit.ofChar? = none
        | .next w => ∃ c rest d, t.scanner.unread = c :: rest ∧ Digit.ofChar? c = some d ∧
            t'.scanner = ⟨c :: t.scanner.passed, rest⟩ ∧ t'.depth = t.depth ∧
            w = Numeral.ofDigits (digits ++ [d]) ∧
            (Meaning.values settings).numeral place.position (digits ++ [d]) = .ok w)
      (fun f _ => ∃ c rest d, t.scanner.unread = c :: rest ∧ Digit.ofChar? c = some d ∧
        (Meaning.values settings).numeral place.position (digits ++ [d]) = .error f) := by
  unfold numeralTurn
  rw [ends_bind, ends_peek]
  cases hp : t.scanner.peek?.bind Digit.ofChar? with
  | none => exact ⟨rfl, rfl, rfl⟩
  | some d =>
    obtain ⟨c, hc, hd⟩ := Option.bind_eq_some_iff.1 hp
    obtain ⟨rest, hr⟩ := Scanner.unread_of_peek? hc
    have hw : (Numeral.base : Int) * v + d.val = Numeral.ofDigits (digits ++ [d]) := by
      rw [hv, Numeral.ofDigits_concat]
      push_cast
      rfl
    simp only [ends_bind, ends_advance hr]
    rw [hw]
    exact ends_checked_of_ranged (fun h => ⟨c, rest, d, hr, hd, rfl, rfl, rfl, h⟩)
      (fun f _ h => ⟨c, rest, d, hr, hd, h⟩)

theorem readFrom_numeral {level : Level Int} {outer : List (Level Int)} {k : Nat}
    {digits : List Digit} {v : Int} {t : Scanner}
    (hd : t.peek?.bind Digit.ofChar? = none)
    (hf : ∀ c, t.peek? = some c → isForeignDigit c = false) :
    readFrom settings ⟨.numeral k digits v, level, outer⟩ t =
      resume settings level outer v t := by
  have hw : ∀ c, t.unread.head? = some c → Digit.ofChar? c = none ∧ isForeignDigit c = false := by
    intro c hc
    refine ⟨?_, hf c hc⟩
    rw [Scanner.peek?, hc] at hd
    exact hd
  unfold readFrom resume
  rw [run_settle _ _ _ _ hw]
  simp only [settle]
  cases join (.values settings) level.product v <;> rfl

/-- Some digits of the numeral that begins at the state `s` have been read. -/
structure InNumeral (settings : Settings) (level : Level Int) (outer : List (Level Int)) (s : State)
    (v : Int) (t : State) (digits : List Digit) : Prop where
  value : v = Numeral.ofDigits digits
  depth : t.depth = s.depth
  shorter : t.scanner.unread.length < s.scanner.unread.length
  reading : readFrom settings ⟨.operand, level, outer⟩ s.scanner =
    readFrom settings ⟨.numeral s.scanner.position digits v, level, outer⟩ t.scanner

theorem InNumeral.turn {level : Level Int} {outer : List (Level Int)} {s t : State} {v : Int}
    {digits : List Digit} (h : InNumeral settings level outer s v t digits) :
    Ends (numeralTurn settings s.scanner v) t
      (Turned (fun v t => ∃ digits, InNumeral settings level outer s v t digits)
        (fun v t => (∃ digits, InNumeral settings level outer s v t digits) ∧
          t.scanner.peek?.bind Digit.ofChar? = none) t)
      (fun f _ => readFrom settings ⟨.operand, level, outer⟩ s.scanner = .error f) := by
  refine (ends_numeralTurn h.value t).mono (fun a t' ha => ?_) (fun f t' hf => ?_)
  · cases a with
    | last w =>
      obtain ⟨rfl, rfl, hp⟩ := ha
      exact ⟨⟨digits, h⟩, hp⟩
    | next w =>
      obtain ⟨c, rest, d, hu, hd, hscanner, hdepth, hw, hn⟩ := ha
      have hlt : t'.scanner.unread.length < t.scanner.unread.length := by
        rw [hscanner, hu]
        exact Nat.lt_succ_self _
      refine ⟨⟨digits ++ [d], hw, hdepth.trans h.depth, Nat.lt_trans hlt h.shorter, ?_⟩, hlt⟩
      rw [h.reading, readFrom_cons hu, hscanner]
      simp only [step, hd, hn, ok_bind]
  · obtain ⟨c, rest, d, hu, hd, hn⟩ := hf
    rw [h.reading, readFrom_cons hu]
    simp only [step, hd, hn, error_bind]

/-- The first digit. -/
theorem InNumeral.first {s : State} (hs : Rule.Starts .number s.scanner) (level : Level Int)
    (outer : List (Level Int)) :
    Ends (numeralTurn settings s.scanner 0) s
      (Turned (fun v t => ∃ digits, InNumeral settings level outer s v t digits)
        (fun _ _ => False) s)
      (fun f _ => readFrom settings ⟨.operand, level, outer⟩ s.scanner = .error f) := by
  obtain ⟨c, rest, d, hu, hd⟩ := hs
  have hzero : (0 : Int) = Numeral.ofDigits [] := rfl
  refine (ends_numeralTurn hzero s).mono (fun a t ha => ?_) (fun f t hf => ?_)
  · cases a with
    | last w =>
      obtain ⟨-, -, hp⟩ := ha
      rw [Scanner.peek?, hu] at hp
      exact absurd (hd.symm.trans hp) (by simp)
    | next w =>
      obtain ⟨c', rest', d', hu', hd', hscanner, hdepth, hw, hn⟩ := ha
      have hlt : t.scanner.unread.length < s.scanner.unread.length := by
        rw [hscanner, hu']
        exact Nat.lt_succ_self _
      refine ⟨⟨[d'], hw, hdepth, hlt, ?_⟩, hlt⟩
      rw [List.nil_append] at hn
      rw [readFrom_cons hu', step_operand_digit hd', hn, hscanner]
      rfl
  · obtain ⟨c', rest', d', hu', hd', hn⟩ := hf
    rw [List.nil_append] at hn
    rw [readFrom_cons hu', step_operand_digit hd', hn]
    rfl

/-- A numeral is read digit by digit, and only once it has ended does its group go on. -/
theorem reads_numeral {s : State} (hs : Rule.Starts .number s.scanner) :
    Reads settings .number (numeral settings) s := by
  intro level outer _ _
  have hloop : Ends (loop (numeralTurn settings s.scanner) s.scanner.unread 0) s
      (fun v t => (∃ digits, InNumeral settings level outer s v t digits) ∧
        t.scanner.peek?.bind Digit.ofChar? = none)
      (fun f _ => readFrom settings ⟨.operand, level, outer⟩ s.scanner = .error f) := by
    refine ends_loop (fun v t => (v = 0 ∧ t = s) ∨
      ∃ digits, InNumeral settings level outer s v t digits) ?_ _ _ _ (.inl ⟨rfl, rfl⟩)
      (Nat.le_refl _)
    rintro v t (⟨rfl, rfl⟩ | ⟨digits, h⟩)
    · refine (InNumeral.first hs level outer).mono (fun a t h => ?_) fun _ _ h => h
      cases a with
      | last w => exact h.elim
      | next w => exact ⟨.inr h.1, h.2⟩
    · refine h.turn.mono (fun a t h => ?_) fun _ _ h => h
      cases a with
      | last w => exact h
      | next w => exact ⟨.inr h.1, h.2⟩
  unfold numeral
  rw [ends_bind, ends_scanner, ends_bind]
  refine hloop.mono (fun v t h => ?_) fun _ _ h => h
  obtain ⟨⟨digits, h⟩, hp⟩ := h
  rw [ends_bind, ends_scanner]
  have hpassed (hf : ∀ c, t.scanner.peek? = some c → isForeignDigit c = false) :
      Passed settings .number level outer s v t :=
    ⟨trivial, h.depth, h.shorter, h.reading.trans (readFrom_numeral hp hf)⟩
  cases hc : t.scanner.peek? with
  | none => exact hpassed (by rw [hc]; simp)
  | some c =>
    dsimp only
    split
    · rename_i hf
      obtain ⟨rest, hu⟩ := Scanner.unread_of_peek? hc
      rw [ends_fail, h.reading, readFrom_cons hu]
      simp only [step, Digit.ofChar?_of_foreign hf, hf]
      rfl
    · rename_i hf
      refine hpassed fun c' hc' => ?_
      rw [hc, Option.some.injEq] at hc'
      rw [← hc']
      exact Bool.eq_false_iff.2 hf

/-! ### Chains -/

theorem ends_combine (op : Operator) (a b : Int) (place : Scanner) (s : State) :
    Ends (combine settings op a b place) s
      (fun v t => t.scanner = s.scanner ∧ t.depth = s.depth ∧
        (Meaning.values settings).operation op place.position a b = .ok v)
      (fun f _ => (Meaning.values settings).operation op place.position a b = .error f) := by
  unfold combine
  cases op with
  | divide =>
    dsimp only
    split
    · rename_i hb
      rw [ends_fail]
      simp only [Meaning.values, Operator.result?, hb, if_true]
      rfl
    · rename_i hb
      rw [quotient_of_ne_zero hb]
      refine ends_checked_of_ranged (fun h => ⟨rfl, rfl, ?_⟩) fun f t h => ?_
      · simpa only [Meaning.values, Operator.result?, hb, if_false] using h
      · simpa only [Meaning.values, Operator.result?, hb, if_false] using h
  | _ => exact ends_checked_of_ranged (fun h => ⟨rfl, rfl, h⟩) fun _ _ h => h

section Chain
variable {p : Precedence} {level : Level Int} {outer : List (Level Int)}

/-- The operand of a waiting operator has been read. -/
theorem resume_wait {op : Operator} {k : Nat} {v right : Int} {t : Scanner}
    (hl : p.chain.Fits level) (ht : p.operand.Stops t) :
    resume settings (p.wait level ⟨op, k, v⟩) outer right t =
      (Meaning.values settings).operation op k v right >>=
        fun v => readFrom settings ⟨.operator v, level, outer⟩ t := by
  cases p with
  | multiplicative =>
    have hlevel : (⟨level.sum, none⟩ : Level Int) = level := by
      rw [← show level.product = none from hl]
    unfold resume
    rw [← hlevel]
    rfl
  | additive =>
    cases hl
    exact run_operator_sum _ _ right (some ⟨op, k, v⟩) outer t.position ht

/-- A chain that began at the state `s` has come to an operand's end. -/
structure InChain (settings : Settings) (p : Precedence) (level : Level Int)
    (outer : List (Level Int)) (s : State) (v : Int) (t : State) : Prop where
  stops : p.operand.Stops t.scanner
  depth : t.depth = s.depth
  shorter : t.scanner.unread.length < s.scanner.unread.length
  reading : readFrom settings ⟨.operand, level, outer⟩ s.scanner =
    readFrom settings ⟨.operator v, level, outer⟩ t.scanner

/-- A chain ends where no operator of its precedence follows. -/
theorem stops_chain {s : Scanner} (hs : p.operand.Stops s)
    (hop : s.skipBlanks.peek?.bind p.operator? = none) : p.chain.Stops s.skipBlanks := by
  cases p with
  | multiplicative =>
    intro c hc
    rw [hc] at hop
    exact ⟨Scanner.peek?_skipBlanks hc, hop⟩
  | additive =>
    intro c hc
    have hskip : s.skipBlanks = s := Scanner.skipBlanks_of_stops fun c h => (hs c h).1
    rw [hskip] at hc hop
    rw [hc] at hop
    exact ⟨(hs c hc).1, (hs c hc).2, hop⟩

/-- An operator whose right operand has been read, in the state `u`, gives the value with which
the chain goes on. -/
theorem InChain.combine {op : Operator} {place : Scanner} {v right : Int} {s u t : State}
    (hl : p.chain.Fits level) (hdepth : u.depth = s.depth)
    (hshorter : u.scanner.unread.length < s.scanner.unread.length)
    (hread : readFrom settings ⟨.operand, level, outer⟩ s.scanner =
      readFrom settings ⟨.operand, p.wait level ⟨op, place.position, v⟩, outer⟩ u.scanner)
    (hright : Passed settings p.operand (p.wait level ⟨op, place.position, v⟩) outer u right t) :
    Ends (combine settings op v right place) t
      (fun w t' => InChain settings p level outer s w t' ∧
        t'.scanner.unread.length < u.scanner.unread.length)
      (fun f _ => readFrom settings ⟨.operand, level, outer⟩ s.scanner = .error f) := by
  rw [hread, hright.reading, resume_wait hl hright.stops]
  refine (ends_combine op v right place t).mono (fun w t' hw => ?_) (fun f t' hf => ?_)
  · obtain ⟨hscanner, hdepth', hw⟩ := hw
    have hless : t'.scanner.unread.length < u.scanner.unread.length := by
      rw [hscanner]
      exact hright.shorter
    refine ⟨⟨?_, ?_, Nat.lt_trans hless hshorter, ?_⟩, hless⟩
    · rw [hscanner]
      exact hright.stops
    · exact (hdepth'.trans hright.depth).trans hdepth
    · rw [hread, hright.reading, resume_wait hl hright.stops, hw, hscanner]
      rfl
  · rw [hf]
    rfl

theorem InChain.turn {operand : Eval Int} {s t : State} {v : Int} (hl : p.chain.Fits level)
    (ho : outer.length = s.depth)
    (hoperand : ∀ t : State, t.scanner.unread.length < s.scanner.unread.length →
      t.depth = s.depth → Reads settings p.operand operand t)
    (h : InChain settings p level outer s v t) :
    Ends (chainTurn settings p operand v) t
      (Turned (InChain settings p level outer s) (Passed settings p.chain level outer s) t)
      (fun f _ => readFrom settings ⟨.operand, level, outer⟩ s.scanner = .error f) := by
  have hproduct := Precedence.product_of_fits hl
  have hskip : readFrom settings ⟨.operator v, level, outer⟩ t.scanner.skipBlanks =
      readFrom settings ⟨.operator v, level, outer⟩ t.scanner :=
    readFrom_skipBlanks (fun _ _ hb => step_operator_blank hproduct hb) _
  have hshorter := Nat.lt_of_le_of_lt (Scanner.skipBlanks_length_le t.scanner) h.shorter
  unfold chainTurn
  simp only [ends_bind, ends_skipBlanks, ends_scanner]
  cases hop : t.scanner.skipBlanks.peek?.bind p.operator? with
  | none =>
    refine ⟨stops_chain h.stops hop, h.depth, hshorter, ?_⟩
    rw [h.reading, ← hskip]
    unfold resume
    rw [hproduct]
    obtain ⟨sum, product⟩ := level
    cases hproduct
    rfl
  | some op =>
    obtain ⟨c, hc, hop⟩ := Option.bind_eq_some_iff.1 hop
    obtain ⟨rest, hu⟩ := Scanner.unread_of_peek? hc
    have hlt : rest.length < t.scanner.skipBlanks.unread.length := by
      rw [hu]
      exact Nat.lt_succ_self _
    have hread : readFrom settings ⟨.operand, level, outer⟩ s.scanner =
        readFrom settings
          ⟨.operand, p.wait level ⟨op, t.scanner.skipBlanks.position, v⟩, outer⟩
          ⟨c :: t.scanner.skipBlanks.passed, rest⟩ := by
      rw [h.reading, ← hskip, readFrom_cons hu, Precedence.step_operator hl hop]
      rfl
    simp only [ends_bind]
    rw [ends_advance (s := {t with scanner := t.scanner.skipBlanks}) hu]
    refine (hoperand {t with scanner := ⟨c :: t.scanner.skipBlanks.passed, rest⟩}
      (Nat.lt_trans hlt hshorter) h.depth _ outer (Precedence.fits_wait level _)
      (ho.trans h.depth.symm)).mono (fun right t' hright => ?_)
      (fun f t' hf => hread.trans hf)
    refine (InChain.combine (u := {t with scanner := ⟨c :: t.scanner.skipBlanks.passed, rest⟩})
      hl h.depth (Nat.lt_trans hlt hshorter) hread hright).mono (fun w t'' hw => ?_)
      fun _ _ hf => hf
    have hless : rest.length < t.scanner.unread.length :=
      Nat.lt_of_lt_of_le hlt (Scanner.skipBlanks_length_le _)
    exact ⟨hw.1, Nat.lt_trans hw.2 hless⟩

/-- A chain takes its operators from the left, each with what came before it. -/
theorem reads_chain {operand : Eval Int} {s : State}
    (hoperand : ∀ t : State, t.scanner.unread.length ≤ s.scanner.unread.length →
      t.depth = s.depth → Reads settings p.operand operand t) :
    Reads settings p.chain (chain settings p operand) s := by
  intro level outer hl ho
  unfold chain
  rw [ends_bind]
  refine (hoperand s (Nat.le_refl _) rfl level outer (Precedence.fits_operand hl) ho).mono
    (fun v t hv => ?_) fun _ _ h => h
  rw [ends_bind, ends_scanner]
  have hlevel : (⟨level.sum, none⟩ : Level Int) = level := by
    rw [← Precedence.product_of_fits hl]
  refine ends_loop (InChain settings p level outer s) (fun v t h => ?_) _ v t
    ⟨hv.stops, hv.depth, hv.shorter, ?_⟩ (Nat.le_refl _)
  · exact h.turn hl ho fun t ht => hoperand t (Nat.le_of_lt ht)
  · rw [hv.reading]
    unfold resume
    rw [hlevel, Precedence.product_of_fits hl]
    rfl

end Chain

/-! ### Factors -/

theorem ends_closeGroup (v : Int) (t : State) :
    Ends (closeGroup v) t
      (fun w t' => w = v ∧ ∃ rest, t.scanner.skipBlanks.unread = ')' :: rest ∧
        t'.scanner = ⟨')' :: t.scanner.skipBlanks.passed, rest⟩ ∧ t'.depth = t.depth - 1)
      (fun f _ => t.scanner.skipBlanks.peek? ≠ some ')' ∧ f = .found .missingParenthesis
        t.scanner.skipBlanks.position t.scanner.skipBlanks.peek?) := by
  unfold closeGroup
  simp only [ends_bind, ends_skipBlanks, ends_scanner]
  split
  · rename_i hc
    obtain ⟨rest, hu⟩ := Scanner.unread_of_peek? hc
    simp only [ends_bind]
    rw [ends_advance (s := {t with scanner := t.scanner.skipBlanks}) hu]
    exact ⟨rfl, rest, hu, rfl, rfl⟩
  · rename_i hc
    exact ⟨hc, rfl⟩

/-- A complete expression inside a group can only be closed. -/
theorem readFrom_close {level : Level Int} {outer : List (Level Int)} {v : Int} {t : Scanner}
    (ht : Rule.Stops .expression t) (hc : t.peek? ≠ some ')') :
    readFrom settings ⟨.operator v, {}, level :: outer⟩ t =
      .error (.found .missingParenthesis t.position t.peek?) := by
  cases hp : t.peek? with
  | none =>
    rw [readFrom_nil (Scanner.unread_of_peek?_none hp)]
    rfl
  | some c =>
    obtain ⟨rest, hu⟩ := Scanner.unread_of_peek? hp
    obtain ⟨hb, hm, ha⟩ := ht c hp
    have hne : c ≠ ')' := fun h => hc (h ▸ hp)
    rw [readFrom_cons hu]
    simp only [step, readOperator_other hb hm ha, join, ok_bind, close, hne]
    rfl

theorem readFrom_closed {level : Level Int} {outer : List (Level Int)} {v : Int} {t : Scanner}
    {rest : List Char} (hu : t.unread = ')' :: rest) :
    readFrom settings ⟨.operator v, {}, level :: outer⟩ t =
      resume settings level outer v ⟨')' :: t.passed, rest⟩ := by
  rw [readFrom_cons hu]
  unfold resume
  have hstep : step (.values settings) settings.nesting ⟨.operator v, {}, level :: outer⟩ t.position
      ')' = join (.values settings) level.product v >>=
        fun v => .ok ⟨.operator v, ⟨level.sum, none⟩, outer⟩ := rfl
  rw [hstep]
  cases join (.values settings) level.product v <;> rfl

/-- A group is an expression one level deeper, up to its own closing parenthesis. -/
theorem ends_group {inner : Eval Int} {level : Level Int} {outer : List (Level Int)} {s : State}
    {rest : List Char} (hu : s.scanner.unread = '(' :: rest) (ho : outer.length = s.depth)
    (hinner : s.depth < settings.nesting → ∀ t : State,
      t.scanner.unread.length < s.scanner.unread.length → t.depth = s.depth + 1 →
      Reads settings .expression inner t) :
    Ends (group settings inner s.scanner) s (Passed settings .factor level outer s)
      (fun f _ => readFrom settings ⟨.operand, level, outer⟩ s.scanner = .error f) := by
  unfold group
  rw [ends_bind, ends_depth]
  split
  · rename_i hn
    rw [ends_fail, readFrom_cons hu, step_operand_paren, if_pos (by omega)]
    rfl
  · rename_i hn
    have hread : readFrom settings ⟨.operand, level, outer⟩ s.scanner =
        readFrom settings ⟨.operand, {}, level :: outer⟩ ⟨'(' :: s.scanner.passed, rest⟩ := by
      rw [readFrom_cons hu, step_operand_open (by omega)]
      rfl
    simp only [ends_bind, ends_enterGroup]
    rw [ends_advance (s := {s with depth := s.depth + 1}) hu]
    have hlt : rest.length < s.scanner.unread.length := by
      rw [hu]
      exact Nat.lt_succ_self _
    refine (hinner (by omega) {s with scanner := ⟨'(' :: s.scanner.passed, rest⟩
                                      depth := s.depth + 1}
      hlt rfl {} (level :: outer) rfl (by simp [ho])).mono (fun v t hv => ?_) fun f t hf => ?_
    · have hskip := Scanner.skipBlanks_of_stops fun c h => (hv.stops c h).1
      have hclose := ends_closeGroup v t
      rw [hskip] at hclose
      refine hclose.mono (fun w t' hw => ?_) (fun f t' hf => ?_)
      · obtain ⟨rfl, rest', hu', hscanner, hdepth⟩ := hw
        refine ⟨trivial, ?_, ?_, ?_⟩
        · rw [hdepth, hv.depth]
          rfl
        · have hshorter := hv.shorter
          rw [hu'] at hshorter
          rw [hscanner]
          simp only [List.length_cons] at hshorter ⊢
          omega
        · rw [hread, hv.reading, hscanner]
          exact readFrom_closed hu'
      · obtain ⟨hc, rfl⟩ := hf
        rw [hread, hv.reading]
        exact readFrom_close hv.stops hc
    · rw [hread]
      exact hf

theorem reads_factor {inner number : Eval Int} {s : State}
    (hinner : s.depth < settings.nesting → ∀ t : State,
      t.scanner.unread.length < s.scanner.unread.length → t.depth = s.depth + 1 →
      Reads settings .expression inner t)
    (hnumber : ∀ t : State, t.scanner.unread.length ≤ s.scanner.unread.length →
      t.depth = s.depth → Rule.Starts .number t.scanner → Reads settings .number number t) :
    Reads settings .factor (factor settings inner number) s := by
  intro level outer _ ho
  have hskip : readFrom settings ⟨.operand, level, outer⟩ s.scanner.skipBlanks =
      readFrom settings ⟨.operand, level, outer⟩ s.scanner :=
    readFrom_skipBlanks (fun _ _ hb => step_operand_blank hb) _
  have hle := Scanner.skipBlanks_length_le s.scanner
  have hpassed {r : Rule} (v : Int) (t : State)
      (h : Passed settings r level outer {s with scanner := s.scanner.skipBlanks} v t) :
      Passed settings .factor level outer s v t :=
    ⟨trivial, h.depth, Nat.lt_of_lt_of_le h.shorter hle, hskip ▸ h.reading⟩
  unfold factor
  simp only [ends_bind, ends_skipBlanks, ends_scanner]
  rw [← hskip]
  split
  · rename_i hc
    rw [ends_fail, readFrom_nil (Scanner.unread_of_peek?_none hc)]
    rfl
  · rename_i hc
    obtain ⟨rest, hu⟩ := Scanner.unread_of_peek? hc
    exact (ends_group (s := {s with scanner := s.scanner.skipBlanks}) hu ho
      (fun hn t ht => hinner hn t (Nat.lt_of_lt_of_le ht hle))).mono hpassed fun _ _ h => h
  · rename_i c hc hpeek
    obtain ⟨rest, hu⟩ := Scanner.unread_of_peek? hpeek
    have hb := Scanner.peek?_skipBlanks hpeek
    cases hd : Digit.ofChar? c with
    | some d =>
      exact (hnumber {s with scanner := s.scanner.skipBlanks} hle rfl ⟨c, rest, d, hu, hd⟩ level
        outer trivial ho).mono hpassed fun _ _ h => h
    | none =>
      simp only [Option.isSome_none, Bool.false_eq_true, if_false]
      have hne : c ≠ '(' := fun h => hc h
      rw [readFrom_cons hu, step_operand_other hb hne hd, error_bind]
      cases isForeignDigit c
      · exact rfl
      · exact rfl

/-! ### Calls -/

/-- Three more calls for every group that may still open are enough, however long the text. -/
theorem reads_call (calls : Nat) (r : Rule) (s : State) (hr : r.Starts s.scanner)
    (hcalls : 3 * (settings.nesting - s.depth) + r.height ≤ calls) :
    Reads settings r (call settings calls r) s := by
  induction calls generalizing r s with
  | zero => cases r <;> exact absurd hcalls (by simp [Rule.height])
  | succ calls ih =>
    cases r with
    | expression =>
      refine reads_chain (p := .additive) fun t _ hd => ih .term t trivial ?_
      simp only [Rule.height, hd] at hcalls ⊢
      omega
    | term =>
      refine reads_chain (p := .multiplicative) fun t _ hd => ih .factor t trivial ?_
      simp only [Rule.height, hd] at hcalls ⊢
      omega
    | factor =>
      refine reads_factor (fun hn t _ hd => ih .expression t trivial ?_)
        (fun t _ hd ht => ih .number t ht ?_)
      · simp only [Rule.height, hd] at hcalls ⊢
        omega
      · simp only [Rule.height, hd] at hcalls ⊢
        omega
    | number => exact reads_numeral hr

/-- After the expression of a text only blanks may follow. -/
theorem ends_finish (text : List Char) {v : Int} {t : State} (ht : Rule.Stops .expression t.scanner) :
    Ends (finish text v) t
      (fun w _ => readFrom settings ⟨.operator v, {}, []⟩ t.scanner = .ok w)
      (fun f _ => readFrom settings ⟨.operator v, {}, []⟩ t.scanner = .error f) := by
  have hskip := Scanner.skipBlanks_of_stops fun c h => (ht c h).1
  unfold finish
  simp only [ends_bind, ends_skipBlanks, ends_scanner]
  rw [hskip]
  cases hp : t.scanner.peek? with
  | none =>
    rw [readFrom_nil (Scanner.unread_of_peek?_none hp)]
    exact rfl
  | some c =>
    obtain ⟨rest, hu⟩ := Scanner.unread_of_peek? hp
    obtain ⟨hb, hm, ha⟩ := ht c hp
    rw [readFrom_cons hu]
    simp only [step, readOperator_other hb hm ha, join, ok_bind, close]
    exact rfl

/-- What reading a whole text comes to. -/
def readText (settings : Settings) (text : List Char) : Except Fault Int :=
  run (.values settings) settings.nesting start 0 text

theorem ends_whole (settings : Settings) {text : List Char} (hb : isBlankText text = false)
    (s : State) (hs : s.scanner = .start text) (hd : s.depth = 0) :
    Ends (whole settings text) s (fun v _ => readText settings text = .ok v)
      (fun f _ => readText settings text = .error f) := by
  have hread : readText settings text = readFrom settings ⟨.operand, {}, []⟩ s.scanner := by
    rw [hs]
    rfl
  unfold whole wholeWithin
  rw [hb, hread]
  simp only [Bool.false_eq_true, if_false, ends_bind]
  have hcalls : 3 * (settings.nesting - s.depth) + Rule.height .expression ≤ callsFor settings := by
    rw [hd]
    exact Nat.le_refl _
  refine (reads_call _ .expression s trivial hcalls {} [] rfl hd.symm).mono (fun v t hv => ?_)
    fun _ _ h => h
  rw [hv.reading]
  exact ends_finish text hv.stops

end BaseThree.Evaluation

namespace BaseThree
open Evaluation

/-- **Evaluating a text that is not blank comes to what reading it comes to**, and to
nothing but a value or a fault. -/
theorem evaluate_eq_readText (settings : Settings) {text : String}
    (hb : isBlankText text.toList = false) :
    evaluate settings text = (readText settings text.toList).mapError .fault := by
  have h := ends_whole settings hb (.start text.toList) rfl rfl
  unfold Ends at h
  unfold evaluate runText outcome
  cases hw : whole settings text.toList (.start text.toList) with
  | ok v t =>
    rw [hw] at h
    rw [show readText settings text.toList = .ok v from h]
    rfl
  | error e t =>
    rw [hw] at h
    cases e with
    | fault f =>
      rw [show readText settings text.toList = .error f from h]
      rfl
    | _ => exact h.elim

theorem evaluate_of_blank (settings : Settings) {text : String}
    (hb : isBlankText text.toList = true) :
    evaluate settings text = .error (.fault { kind := .emptyInput }) := by
  unfold evaluate runText outcome whole wholeWithin
  rw [hb]
  rfl

end BaseThree
