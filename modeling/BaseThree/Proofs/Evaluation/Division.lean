import BaseThree.Proofs.Evaluation.Calls
import BaseThree.Proofs.Quotient

/-! Division in a range.

A term goes from one factor to the next and holds the value of what it has read (`Holds`). In a
bounded evaluation that value is in range, whatever state the term began in, and so is the next
factor's; of the divisions that this leaves only one overflows, of the least value by minus one
(`quotient_toward_zero`). -/
namespace BaseThree
namespace Evaluation

/-- Read from the state `s`, a term has come to the value `v` in the state `t`, and may go on. -/
inductive Holds (settings : Settings) (calls : Nat) (s : State) : Int → State → Prop
  | first {v : Int} {t : State} (factor : call settings calls .factor s = .ok v t) :
    Holds settings calls s v t
  | next {v w : Int} {t u : State} (held : Holds settings calls s v t)
    (turn : chainTurn settings .multiplicative (call settings calls .factor) v t =
      .ok (.next w) u) : Holds settings calls s w u

/-- A term that is read from the state `s`, within the limit and with calls enough, holds `left` in
the state `t`; there a '/' comes next, and after it a factor of the value `right`. -/
structure Divides (settings : Settings) (calls : Nat) (s t : State) (left right : Int) : Prop where
  limit : s.depth ≤ settings.nesting
  enough : 3 * (settings.nesting - s.depth) + Rule.factor.height ≤ calls
  held : Holds settings calls s left t
  operand : ∃ rest u, t.scanner.skipBlanks.unread = '/' :: rest ∧
    call settings calls .factor
      {t with scanner := ⟨'/' :: t.scanner.skipBlanks.passed, rest⟩} = .ok right u

section
variable {settings : Settings} {calls : Nat} {s t u : State} {v : Int}

theorem eq_ok_of_outcome {α : Type} {m : Eval α} {a : α} (h : outcome m s = (.ok a, t)) :
    m s = .ok a t := by
  unfold outcome at h
  cases hm : m s with
  | ok b u =>
    rw [hm] at h
    cases h
    rfl
  | error e u =>
    rw [hm] at h
    cases h

/-! ### What a term holds -/

/-- What a term holds is in range, and all groups on the way to it are closed. -/
theorem Holds.returns (hs : s.depth ≤ settings.nesting)
    (hcalls : 3 * (settings.nesting - s.depth) + Rule.factor.height ≤ calls)
    (h : Holds settings calls s v t) : Returns settings s v t := by
  have hfactor (u : State) (hu : u.depth = s.depth) :
      Behaves settings (call settings calls .factor) u :=
    ends_call calls .factor u (hu.symm ▸ hs) (hu.symm ▸ hcalls)
  induction h with
  | first hvalue => exact (hfactor s rfl).value hvalue
  | @next v w t u held hturn ih =>
    have hnext := (ends_chainTurn_moves (ih.depth.symm ▸ hs) ih.inRange
      fun u hu => hfactor u (hu.trans ih.depth)).value hturn
    exact hnext.1.after ih.moves ih.depth

/-- What is left of the term is the loop from what it holds, with turns enough for it. -/
theorem Holds.term_eq (h : Holds settings calls s v t) :
    ∃ budget, t.scanner.unread.length ≤ budget.length ∧
      call settings (calls + 1) .term s =
        loop (chainTurn settings .multiplicative (call settings calls .factor)) budget v t := by
  induction h with
  | @first v t hvalue =>
    refine ⟨t.scanner.unread, Nat.le_refl _, ?_⟩
    rw [call, chain, run_bind, hvalue]
    rfl
  | @next v w t u held hturn ih =>
    obtain ⟨budget, hle, hterm⟩ := ih
    have hshorter : t.Shortens u := by
      apply shortens_chainTurn (p := .multiplicative) (r := .factor) (v := v) (w := w)
      rw [outcome, hturn]
    have hleft : u.scanner.unread.length < t.scanner.unread.length := hshorter.left
    cases budget with
    | nil => exact absurd hle (by rw [List.length_nil]; omega)
    | cons c budget =>
      rw [List.length_cons] at hle
      refine ⟨budget, by omega, ?_⟩
      rw [hterm, loop, run_bind, hturn]

/-- A turn that fails ends the term. -/
theorem Holds.term_error (h : Holds settings calls s v t) {e : Failure}
    (hturn : chainTurn settings .multiplicative (call settings calls .factor) v t = .error e u) :
    call settings (calls + 1) .term s = .error e u := by
  obtain ⟨budget, -, hterm⟩ := h.term_eq
  rw [hterm]
  cases budget <;> rw [loop, run_bind, hturn]

/-! ### A division -/

theorem chainTurn_divide {rest : List Char} {right : Int} (left : Int)
    (hu : t.scanner.skipBlanks.unread = '/' :: rest)
    (hright : call settings calls .factor
      {t with scanner := ⟨'/' :: t.scanner.skipBlanks.passed, rest⟩} = .ok right u)
    (hr : right ≠ 0) :
    chainTurn settings .multiplicative (call settings calls .factor) left t =
      (checked settings (left.tdiv right) t.scanner.skipBlanks >>= fun q => pure (.next q)) u := by
  have hop : t.scanner.skipBlanks.peek?.bind Precedence.multiplicative.operator? = some .divide := by
    rw [Scanner.peek?, hu]
    rfl
  have hadvance : advance {t with scanner := t.scanner.skipBlanks} =
      .ok '/' {t with scanner := ⟨'/' :: t.scanner.skipBlanks.passed, rest⟩} := by
    unfold advance Scanner.next?
    dsimp only
    rw [hu]
  have hcombine : combine settings .divide left right t.scanner.skipBlanks =
      checked settings (left.tdiv right) t.scanner.skipBlanks := by
    unfold combine
    rw [if_neg hr, quotient_of_ne_zero hr]
  unfold chainTurn
  simp only [run_bind, skipBlanks, scanner, hop, hadvance, hright, hcombine]

/-- In the state `t` the term that began in `s` ends with an overflow, at the '/' that comes next. -/
def OverflowsAt (settings : Settings) (calls : Nat) (s t : State) (left : Int) : Prop :=
  ∃ u, chainTurn settings .multiplicative (call settings calls .factor) left t =
      .error (.fault (faultAt .overflow t.scanner.skipBlanks none)) u ∧
    call settings (calls + 1) .term s =
      .error (.fault (faultAt .overflow t.scanner.skipBlanks none)) u

theorem Divides.overflows {left right : Int} (h : Divides settings calls s t left right)
    (hr : right ≠ 0) (hq : settings.inRange (left.tdiv right) = false) :
    OverflowsAt settings calls s t left := by
  obtain ⟨rest, u, hu, hright⟩ := h.operand
  have hturn := chainTurn_divide left hu hright hr
  simp only [run_bind, checked, hq, Bool.false_eq_true, if_false, run_fail] at hturn
  exact ⟨_, hturn, h.held.term_error hturn⟩

theorem Divides.continues {left right : Int} (h : Divides settings calls s t left right)
    (hr : right ≠ 0) (hq : settings.inRange (left.tdiv right) = true) :
    ∃ u, Holds settings calls s (left.tdiv right) u ∧ ¬OverflowsAt settings calls s t left := by
  obtain ⟨rest, u, hu, hright⟩ := h.operand
  have hturn := chainTurn_divide left hu hright hr
  simp only [run_bind, checked, hq, if_true, run_pure] at hturn
  refine ⟨_, h.held.next hturn, ?_⟩
  rintro ⟨_, herror, -⟩
  rw [hturn] at herror
  cases herror

end

/-- **A quotient is the one whose remainder is smaller than the divisor and has the dividend's sign;
in a range, one division overflows.** The sign of either operand is that of the quotient, which is
no farther from zero than the dividend. -/
theorem quotient_toward_zero :
    (∀ left right : Int, right ≠ 0 → ∃ q, quotient left right = .ok q ∧
      (∀ q', IsQuotient left right q' ↔ q' = q) ∧
      quotient (-left) right = .ok (-q) ∧ quotient left (-right) = .ok (-q) ∧
      q.natAbs ≤ left.natAbs) ∧
    (∀ n, 32 ≤ n → ∀ left right q : Int, -2 ^ (n - 1) ≤ left ∧ left ≤ 2 ^ (n - 1) - 1 →
      -2 ^ (n - 1) ≤ right ∧ right ≤ 2 ^ (n - 1) - 1 → quotient left right = .ok q →
      (¬(-2 ^ (n - 1) ≤ q ∧ q ≤ 2 ^ (n - 1) - 1) ↔ left = -2 ^ (n - 1) ∧ right = -1)) ∧
    ∀ settings : Settings, settings.overflow = .error →
      ∀ (calls : Nat) (s t : State) (left right : Int),
        Divides settings calls s t left right → right ≠ 0 →
        (OverflowsAt settings calls s t left ↔
          left = -2 ^ (settings.bits - 1) ∧ right = -1) ∧
        (¬(left = -2 ^ (settings.bits - 1) ∧ right = -1) →
          ∃ u, Holds settings calls s (left.tdiv right) u) := by
  have hpow (k : Nat) : (0 : Int) < 2 ^ k := Int.pow_pos (by decide)
  refine ⟨fun left right hr => ⟨left.tdiv right, quotient_of_ne_zero hr, fun q' => ?_, ?_, ?_, ?_⟩,
    fun n hn left right q hl _ hq => ?_, fun settings ho calls s t left right h hr => ?_⟩
  · exact isQuotient_iff hr
  · rw [quotient_of_ne_zero hr, Int.neg_tdiv]
  · rw [quotient_of_ne_zero (by omega), Int.tdiv_neg]
  · exact Int.natAbs_tdiv_le_natAbs left right
  · have hr : right ≠ 0 := by
      rintro rfl
      cases hq
    rw [quotient_of_ne_zero hr] at hq
    cases hq
    exact tdiv_range_iff (hpow (n - 1)) hl hr
  · have hmax := settings.maxValue_eq
    have hmin : settings.minValue = -2 ^ (settings.bits - 1) := by
      rw [settings.minValue_eq, hmax]
      omega
    have hleft := (h.held.returns h.limit h.enough).inRange
    rw [Settings.inRange_iff_of_error ho, hmin, hmax] at hleft
    have hcorner : settings.inRange (left.tdiv right) = false ↔
        left = -2 ^ (settings.bits - 1) ∧ right = -1 := by
      rw [← tdiv_range_iff (hpow _) hleft hr, ← hmin, ← hmax, ← Settings.inRange_iff_of_error ho,
        Bool.not_eq_true]
    cases hq : settings.inRange (left.tdiv right) with
    | false =>
      have hover := h.overflows hr hq
      exact ⟨iff_of_true hover (hcorner.1 hq), fun hnot => absurd (hcorner.1 hq) hnot⟩
    | true =>
      obtain ⟨u, hnext, hnot⟩ := h.continues hr hq
      have hne : ¬(left = -2 ^ (settings.bits - 1) ∧ right = -1) := fun hmin => by
        rw [hcorner.2 hmin] at hq
        cases hq
      exact ⟨iff_of_false hnot hne, fun _ => ⟨u, hnext⟩⟩

/-- The least value of thirty-two bits, written as a difference: the minus one is a group too. -/
theorem least_value_by_minus_one :
    (∃ q, quotient (-2147483648) (-1) = .ok q ∧ ¬(-2 ^ 31 ≤ q ∧ q ≤ 2 ^ 31 - 1)) ∧
    ∃ t, Divides {overflow := .error, bits := 32, nesting := 1} 5
        (.start "(0-12112122212110202101-1)/(0-1)".toList) t (-2147483648) (-1) ∧
      OverflowsAt {overflow := .error, bits := 32, nesting := 1} 5
        (.start "(0-12112122212110202101-1)/(0-1)".toList) t (-2147483648) := by
  obtain ⟨hquotient, hrange, hdivides⟩ := quotient_toward_zero
  constructor
  · obtain ⟨q, hq, -⟩ := hquotient (-2147483648) (-1) (by decide)
    have hcorner := hrange 32 (by decide) (-2147483648) (-1) q (by decide) (by decide) hq
    exact ⟨q, hq, hcorner.2 (by decide)⟩
  · have hheld : Divides {overflow := .error, bits := 32, nesting := 1} 5
        (.start "(0-12112122212110202101-1)/(0-1)".toList)
        {scanner := ⟨"(0-12112122212110202101-1)".toList.reverse, "/(0-1)".toList⟩}
        (-2147483648) (-1) :=
      { limit := by decide
        enough := by decide
        held := .first (eq_ok_of_outcome (by decide +kernel))
        operand := ⟨"(0-1)".toList,
          {scanner := ⟨"(0-12112122212110202101-1)/(0-1)".toList.reverse, []⟩}, rfl,
          eq_ok_of_outcome (by decide +kernel)⟩ }
    obtain ⟨hcorner, -⟩ := hdivides _ rfl 5 _ _ _ _ hheld (by decide)
    exact ⟨_, hheld, hcorner.2 (by decide)⟩

end Evaluation
end BaseThree
