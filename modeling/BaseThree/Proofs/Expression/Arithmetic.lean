import BaseThree.Proofs.Expression.Diagnosis
import BaseThree.Proofs.Parentheses
import BaseThree.Proofs.Reading.Places
import BaseThree.Proofs.Reading.Stop

/-! What a fault of arithmetic says.

`arithmetic_fault_cause`: a fault of arithmetic is never a false alarm, also in a text that is not
an expression. Where it is found stands a numeral that is too large, or an operator; and the
operands of that operator, cut out of the text and evaluated alone, have values that it cannot
take, or whose result is out of range. -/
namespace BaseThree
open Evaluation Grammar
open BaseThree.Frame (openIn)

/-! ### Causes -/

/-- The digits that a text begins with. -/
def leadingDigits (text : List Char) : List Digit :=
  (text.takeWhile fun c => (Digit.ofChar? c).isSome).filterMap Digit.ofChar?

/-- `w`, which stands at offset `k`, is all of the operand that begins there; `rest` follows it. No
digit carries on its last numeral, and if it is a term, no operator of the higher precedence
carries on the term. -/
structure RightOperand (p : Precedence) (k : Nat) (w rest : List Char) : Prop where
  derives : ∃ t, Derives p.operand k w t
  numeral_ends : endsInDigit w = true → NotDigit rest
  term_ends : p = .additive → ∀ c, (rest.dropWhile Text.isBlank).head? = some c →
    Precedence.multiplicative.operator? c = none

/-- The operator has no result for these operands, or one that is out of range. -/
inductive Operator.Fails (settings : Settings) (op : Operator) (a b : Int) : Fault.Kind → Prop
  | zero (divides : op = .divide) (zero : b = 0) : Fails settings op a b .divisionByZero
  | range {v : Int} (bounded : settings.overflow = .error) (result : op.result? a b = some v)
    (out : ¬(settings.minValue ≤ v ∧ v ≤ settings.maxValue)) : Fails settings op a b .overflow

/-- What can be wrong with values at the offset `p` of a text. -/
inductive Cause (settings : Settings) (text : List Char) (p : Nat) : Fault.Kind → Prop
  /-- A numeral starts there, and it is too large. -/
  | numeral {c : Char} (digit : c ∈ ['0', '1', '2']) (here : text[p]? = some c)
    (starts : ∀ d, (text.take p).getLast? = some d → Text.isDecimalDigit d = false)
    (bounded : settings.overflow = .error)
    (large : settings.maxValue < Numeral.ofDigits (leadingDigits (text.drop p))) :
    Cause settings text p .overflow
  /-- An operator stands there, and it fails on the values of its operands. -/
  | operator {precedence : Precedence} {op : Operator} {c : Char} {frame : Frame}
    {outer : List Frame} {right rest : List Char} {a b : Int} {kind : Fault.Kind}
    (here : text[p]? = some c) (operator : precedence.operator? c = some op)
    (inside : openIn (text.take p) = frame :: outer)
    (after : text.drop (p + 1) = right ++ rest)
    (operand : RightOperand precedence (p + 1) right rest)
    (left_value : evaluate settings
      (String.ofList ((text.take p).drop (frame.left precedence))) = .ok a)
    (right_value : evaluate settings (String.ofList right) = .ok b)
    (fails : op.Fails settings a b kind) : Cause settings text p kind

/-- The fault names an offset at which its cause stands, and no character. -/
def Caused (settings : Settings) (text : List Char) (f : Fault) : Prop :=
  ∃ p : Nat, f.position = some (p : Int) ∧ f.character = none ∧ Cause settings text p f.kind

/-! ### Single values -/

section
variable {settings : Settings} {f : Fault}

theorem ranged_eq_error {place : Nat} {v : Int} (h : Tree.ranged settings place v = .error f) :
    f = { kind := .overflow, position := some place } ∧ settings.overflow = .error ∧
      ¬(settings.minValue ≤ v ∧ v ≤ settings.maxValue) := by
  unfold Tree.ranged at h
  split at h
  · cases h
  · rename_i hv
    cases h
    cases ho : settings.overflow with
    | unbounded => exact absurd (Settings.inRange_of_unbounded ho v) hv
    | error =>
      rw [Settings.inRange_iff_of_error ho] at hv
      exact ⟨rfl, rfl, hv⟩

theorem Operator.result?_eq_none {op : Operator} {a b : Int} (h : op.result? a b = none) :
    op = .divide ∧ b = 0 := by
  cases op with
  | plus | minus | times => cases h
  | divide =>
    by_cases hb : b = 0
    · exact ⟨rfl, hb⟩
    · rw [result?, if_neg hb] at h
      cases h

theorem operation_eq_error {op : Operator} {place : Nat} {a b : Int}
    (h : (Meaning.values settings).operation op place a b = .error f) :
    f.position = some (place : Int) ∧ f.character = none ∧ op.Fails settings a b f.kind := by
  simp only [Meaning.values] at h
  cases hv : op.result? a b with
  | some v =>
    rw [hv] at h
    obtain ⟨rfl, hbounded, hout⟩ := ranged_eq_error h
    exact ⟨rfl, rfl, .range hbounded hv hout⟩
  | none =>
    rw [hv] at h
    cases h
    obtain ⟨rfl, rfl⟩ := Operator.result?_eq_none hv
    exact ⟨rfl, rfl, .zero rfl rfl⟩

theorem leadingDigits_append (digits : List Digit) (rest : List Char) :
    leadingDigits (digits.map Digit.toChar ++ rest) = digits ++ leadingDigits rest := by
  induction digits with
  | nil => rfl
  | cons d digits ih =>
    unfold leadingDigits at ih ⊢
    simp only [List.map_cons, List.cons_append, List.takeWhile_cons, Digit.ofChar?_toChar,
      Option.isSome_some, if_true, List.filterMap_cons, ih]

/-! ### Stretches by themselves -/

/-- An expression that has a value has the same value as a text of its own. -/
theorem evaluate_of_derives {k : Nat} {w b : List Char} {t : Tree} {v : Int}
    (h : Derives .expression k w t) (blank : IsBlank b) (hn : t.nesting ≤ settings.nesting)
    (hv : t.value settings = .ok v) : evaluate settings (String.ofList (w ++ b)) = .ok v := by
  have hrun : Reading.start.run (.values settings) settings.nesting k (w ++ b) = .ok v := by
    rw [← hv, Reading.evaluate_run (r := .start) trivial (run_of_derives h blank hn)]
    rfl
  have hread : readText settings (w ++ b) = .ok v := Reading.run_start_eq_ok 0 hrun
  have hblank := not_blank_of_grammatical (grammatical_of_readText hread)
  rw [evaluate_eq_readText settings (by rw [String.toList_ofList]; exact hblank),
    String.toList_ofList, hread]
  rfl

theorem derives_of_chain {p : Precedence} {k : Nat} {w : List Char} {t : Tree}
    (h : Derives p.chain k w t) : Derives .expression k w t := by
  cases p with
  | additive => exact h
  | multiplicative => exact .term h

theorem derives_of_operand {p : Precedence} {k : Nat} {w : List Char} {t : Tree}
    (h : Derives p.operand k w t) : Derives .expression k w t := by
  cases p with
  | additive => exact .term h
  | multiplicative => exact .term (.factor h)

/-! ### Numerals -/

/-- No digit of any script stands at the end. -/
def EndsClear (u : List Char) : Prop := ∀ c, u.getLast? = some c → Text.isDecimalDigit c = false

theorem endsClear_nil : EndsClear [] := nofun

theorem endsClear_concat {u : List Char} {c : Char} (h : Text.isDecimalDigit c = false) :
    EndsClear (u ++ [c]) := by
  intro d hd
  rw [List.getLast?_concat] at hd
  cases hd
  exact h

theorem EndsClear.append {u w : List Char} (hu : EndsClear u) (hw : EndsClear w) :
    EndsClear (u ++ w) := by
  intro c hc
  rw [List.getLast?_append] at hc
  rcases Option.or_eq_some_iff.1 hc with hc | ⟨-, hc⟩
  · exact hw c hc
  · exact hu c hc

theorem endsClear_of_blank {b : List Char} (h : IsBlank b) : EndsClear b :=
  fun c hc => isDecimalDigit_of_blank (h c (List.mem_of_getLast? hc))

theorem Waits.endsClear {limit k : Nat} {p : Precedence} {pending : Option (Pending Tree)}
    {w : List Char} (h : Waits limit p k pending w) : EndsClear w := by
  cases h with
  | none => exact endsClear_nil
  | some left blank operator =>
    refine endsClear_concat ?_
    have hm := Precedence.mem_of_operator? operator
    cases p <;> simp only [List.mem_cons, List.not_mem_nil, or_false] at hm <;>
      rcases hm with rfl | rfl <;> decide

theorem Opens.endsClear {nesting : Nat} {outer : List (Level Tree)} {u : List Char}
    (h : Opens nesting outer u) : EndsClear u := by
  cases h with
  | whole => exact endsClear_nil
  | group => exact endsClear_concat (by decide)

/-- A numeral starts a token: what is before it has no digit at its end. -/
theorem endsClear_of_inLevel {nesting limit k : Nat} {level : Level Tree}
    {outer : List (Level Tree)} {u w b : List Char} (opens : Opens nesting outer u)
    (inLevel : InLevel limit k level w) (blank : IsBlank b) : EndsClear (u ++ w ++ b) := by
  obtain ⟨sums, products⟩ := inLevel
  exact (opens.endsClear.append (sums.endsClear.append products.endsClear)).append
    (endsClear_of_blank blank)

/-- The digits read so far are too large already, so the whole numeral is. -/
theorem caused_by_numeral {pre rest : List Char} {digits : List Digit} (hpre : EndsClear pre)
    (hd : digits ≠ []) (h : (Meaning.values settings).numeral pre.length digits = .error f) :
    Caused settings (pre ++ (digits.map Digit.toChar ++ rest)) f := by
  obtain ⟨rfl, hbounded, hout⟩ := ranged_eq_error h
  obtain ⟨d, more, rfl⟩ := List.exists_cons_of_ne_nil hd
  refine ⟨pre.length, rfl, rfl,
    .numeral (Digit.ofChar?_eq_some_iff.1 ⟨d, Digit.ofChar?_toChar d⟩) ?_ ?_ hbounded ?_⟩
  · rw [List.getElem?_append_right (Nat.le_refl _), Nat.sub_self]
    rfl
  · rw [List.take_left]
    exact hpre
  · rw [List.drop_left, leadingDigits_append]
    have hmin := settings.minValue_le_zero
    have hmore := Numeral.ofDigits_le_append (d :: more) (leadingDigits rest)
    omega

/-! ### Operators -/

/-- The right operand of an operator that waits has ended, and the operator fails. Its left operand
is all that its frame, or the last term of it, holds before the operator. -/
theorem caused_by_operator {p : Precedence} {limit : Nat} {frame : Frame} {outer : List Frame}
    {pre w v rest : List Char} {pending : Option (Pending Tree)} {waiting : Option (Pending Int)}
    {t : Tree} {b : Int} (hframe : openIn pre = frame :: outer) (hleft : frame.left p = pre.length)
    (hw : Waits limit p pre.length pending w)
    (hv : Spans limit p.operand (pre.length + w.length) v t) (hlimit : limit ≤ settings.nesting)
    (hwaiting : Pending.evaluate settings pending = .ok waiting) (hb : t.value settings = .ok b)
    (hdigit : endsInDigit v = true → NotDigit rest)
    (hterm : p = .additive → ∀ c, (rest.dropWhile Text.isBlank).head? = some c →
      Precedence.multiplicative.operator? c = none)
    (h : Reading.join (.values settings) waiting b = .error f) :
    Caused settings (pre ++ w ++ v ++ rest) f := by
  cases hw with
  | none =>
    cases hwaiting
    cases h
  | @some w e c op l left blank operator =>
    obtain ⟨a, ha, hwaiting⟩ := exists_of_bind_eq_ok hwaiting
    cases hwaiting
    obtain ⟨hposition, hcharacter, hfails⟩ := operation_eq_error h
    have hplace : (pre ++ (w ++ e)).length = pre.length + w.length + e.length := by
      simp only [List.length_append, Nat.add_assoc]
    have htext : pre ++ (w ++ e ++ [c]) ++ v ++ rest = pre ++ (w ++ e) ++ c :: (v ++ rest) := by
      simp only [List.append_assoc, List.cons_append, List.nil_append]
    obtain ⟨g, hg, hstart⟩ := Frame.left_openFrom left.derives blank frame outer
    have hright : Derives p.operand ((pre ++ (w ++ e)).length + 1) v t := by
      have hderives := hv.derives
      rw [List.length_append, List.length_singleton, ← Nat.add_assoc, ← List.length_append]
        at hderives
      exact hderives
    have hinside : openIn ((pre ++ (w ++ e) ++ c :: (v ++ rest)).take (pre ++ (w ++ e)).length) =
        g :: outer := by
      rw [List.take_left, Frame.openIn_append, hframe]
      exact hg
    rw [htext]
    refine ⟨(pre ++ (w ++ e)).length, ?_, hcharacter, .operator ?_ operator hinside ?_
      ⟨⟨t, hright⟩, hdigit, hterm⟩ ?_ ?_ hfails⟩
    · rw [hplace]
      exact hposition
    · rw [List.getElem?_append_right (Nat.le_refl _), Nat.sub_self]
      rfl
    · rw [List.drop_append, List.drop_of_length_le (Nat.le_succ _), Nat.add_sub_cancel_left]
      rfl
    · rw [List.take_left, hstart, hleft, List.drop_left]
      exact evaluate_of_derives (derives_of_chain left.derives) blank
        (Nat.le_trans left.nesting_le hlimit) ha
    · have hvalue := evaluate_of_derives (derives_of_operand hright) isBlank_nil
        (Nat.le_trans hv.nesting_le hlimit) hb
      rw [List.append_nil] at hvalue
      exact hvalue

/-- A product is at fault once its last factor has been read. -/
theorem caused_by_product {level : Level Tree} {outer : List (Level Tree)} {u w v rest : List Char}
    {product : Option (Pending Int)} {t : Tree} {b : Int} (opens : Opens settings.nesting outer u)
    (inLevel : InLevel (settings.nesting - outer.length) u.length level w)
    (hv : Spans (settings.nesting - outer.length) .factor (u.length + w.length) v t)
    (hproduct : Pending.evaluate settings level.product = .ok product)
    (hb : t.value settings = .ok b) (hdigit : endsInDigit v = true → NotDigit rest)
    (h : Reading.join (.values settings) product b = .error f) :
    Caused settings (u ++ w ++ v ++ rest) f := by
  obtain ⟨sums, products⟩ := inLevel
  rename_i x y
  obtain ⟨frames, hframes⟩ := opens.openIn
  have hframe : openIn (u ++ x) = ⟨u.length, u.length + x.length⟩ :: frames := by
    rw [Frame.openIn_append, hframes, sums.openFrom_additive]
  rw [List.length_append, ← Nat.add_assoc, ← List.length_append] at hv
  rw [← List.length_append] at products
  rw [← List.append_assoc u]
  exact caused_by_operator (p := .multiplicative) hframe List.length_append.symm products hv
    (Nat.sub_le _ _) hproduct hb hdigit nofun h

theorem evaluate_level_eq_ok {level : Level Tree} {values : Level Int}
    (h : level.evaluate settings = .ok values) :
    Pending.evaluate settings level.sum = .ok values.sum ∧
      Pending.evaluate settings level.product = .ok values.product := by
  obtain ⟨sum, hsum, h⟩ := exists_of_bind_eq_ok h
  obtain ⟨product, hproduct, h⟩ := exists_of_bind_eq_ok h
  cases h
  exact ⟨hsum, hproduct⟩

/-- What is at fault after a term is the sum that it ends, or the product that goes on with the
group that it ends. -/
theorem caused_after_term {k : Nat} {sum : Option (Pending Tree)} {level : Level Int}
    {outer : List (Level Tree)} {values : List (Level Int)} {u w v e rest : List Char} {t : Tree}
    {b : Int} (opens : Opens settings.nesting outer u)
    (sums : Waits (settings.nesting - outer.length) .additive u.length sum w)
    (term : Spans (settings.nesting - outer.length) .term (u.length + w.length) v t)
    (blank : IsBlank e) (houter : Level.evaluateAll settings outer = .ok values)
    (hsum : Pending.evaluate settings sum = .ok level.sum) (hb : t.value settings = .ok b)
    (hdigit : endsInDigit v = true → NotDigit (e ++ rest))
    (hstops : Reading.Stops (.values settings) settings.nesting ⟨.operator b, level, values⟩ k f
      rest) (hf : f.kind.isArithmetic = true) :
    Caused settings (u ++ w ++ v ++ (e ++ rest)) f := by
  obtain ⟨hnext, hcase⟩ := hstops.operator hf
  -- In the second case the sum has a value, and with it the group that the parenthesis closes; the
  -- operator that waited for the group stands in the group around it.
  rcases hcase with hjoin | ⟨a, above, around, more, ha, rfl, rfl, hjoin⟩
  · obtain ⟨frames, hframes⟩ := opens.openIn
    refine caused_by_operator hframes rfl sums term (Nat.sub_le _ _) hsum hb hdigit
      (fun _ c hc => ?_) hjoin
    rw [List.dropWhile_append_of_pos blank] at hc
    cases rest with
    | nil => cases hc
    | cons d rest =>
      rw [List.dropWhile_cons_of_neg (by simp [(hnext d rfl).1])] at hc
      exact (hnext c hc).2
  · cases outer with
    | nil => cases houter
    | cons group outer =>
      obtain ⟨values, -, houter⟩ := exists_of_bind_eq_ok houter
      obtain ⟨level', hgroup, houter⟩ := exists_of_bind_eq_ok houter
      cases houter
      obtain ⟨x, y, z, rfl, opens', inLevel', hfactor⟩ :=
        opens.closes (sums.spans (p := .additive) term) blank
      have hvalue : (Tree.group (Pending.tree sum t)).value settings = .ok a := by
        rw [Tree.value, Reading.value_tree, hsum, ok_bind, hb, ok_bind]
        exact ha
      have hend : endsInDigit (z ++ '(' :: (w ++ v ++ e ++ [')'])) = true → NotDigit more := by
        rw [← List.cons_append, ← List.append_assoc z, endsInDigit_concat]
        exact fun h => absurd h (by decide)
      have hcaused := caused_by_product opens' inLevel' hfactor (evaluate_level_eq_ok hgroup).2
        hvalue hend hjoin
      simp only [List.append_assoc, List.cons_append, List.nil_append] at hcaused ⊢
      exact hcaused

/-- Where a numeral goes on, its next digit makes it too large, or else it has ended, and the
product that it ends or what comes after its term is at fault. -/
theorem caused_after_digit {k place : Nat} {digits : List Digit} {level : Level Tree}
    {current : Level Int} {outer : List (Level Tree)} {values : List (Level Int)}
    {u w e rest : List Char} {v : Int} (opens : Opens settings.nesting outer u)
    (inLevel : InLevel (settings.nesting - outer.length) u.length level w) (blank : IsBlank e)
    (some_digit : digits ≠ []) (hplace : place = u.length + w.length + e.length)
    (houter : Level.evaluateAll settings outer = .ok values)
    (hlevel : level.evaluate settings = .ok current)
    (hv : (Tree.numeral place digits).value settings = .ok v)
    (hstops : Reading.Stops (.values settings) settings.nesting ⟨.numeral place digits v, current,
      values⟩ k f rest) (hf : f.kind.isArithmetic = true) :
    Caused settings (u ++ w ++ (e ++ digits.map Digit.toChar) ++ rest) f := by
  obtain ⟨hsum, hproduct⟩ := evaluate_level_eq_ok hlevel
  have hfactor : Spans (settings.nesting - outer.length) .factor (u.length + w.length)
      (e ++ digits.map Digit.toChar) (.numeral place digits) :=
    Covers.spans_numeral blank some_digit hplace
  rcases hstops.numeral hf with ⟨c, more, d, rfl, hd, hnumeral⟩ | ⟨hdigit, hcase⟩
  · rw [hplace, ← List.length_append, ← List.length_append] at hnumeral
    have hcaused : Caused settings (u ++ w ++ e ++ ((digits ++ [d]).map Digit.toChar ++ more)) f :=
      caused_by_numeral (endsClear_of_inLevel opens inLevel blank)
        (List.append_ne_nil_of_right_ne_nil _ (List.cons_ne_nil d [])) hnumeral
    rw [List.map_append, List.map_singleton, Digit.toChar_of_ofChar? hd] at hcaused
    simp only [List.append_assoc, List.cons_append, List.nil_append] at hcaused ⊢
    exact hcaused
  · rcases hcase with hjoin | ⟨x, hx, hstops⟩
    · exact caused_by_product opens inLevel hfactor hproduct hv (fun _ => hdigit) hjoin
    · obtain ⟨x', y, rfl, sums, term⟩ := inLevel.spans hfactor
      have hvalue :
          (Pending.tree level.product (.numeral place digits)).value settings = .ok x := by
        rw [Reading.value_tree, hproduct, ok_bind, hv, ok_bind]
        exact hx
      have hcaused := caused_after_term opens sums term isBlank_nil houter hsum hvalue
        (fun _ => hdigit) hstops hf
      simp only [List.append_assoc, List.nil_append] at hcaused ⊢
      exact hcaused

/-- **Wherever reading values stops for arithmetic, the text read so far says why.** -/
theorem caused_of_stops {r : Reading Tree} {s : Reading Int} {u rest : List Char}
    (hr : Covers settings.nesting r u) (hshows : r.outline.Shows settings.nesting u)
    (hs : r.evaluate settings = .ok s)
    (hstops : s.Stops (.values settings) settings.nesting u.length f rest)
    (hf : f.kind.isArithmetic = true) : Caused settings (u ++ rest) f := by
  obtain ⟨values, houter, hs⟩ := exists_of_bind_eq_ok hs
  obtain ⟨level, hlevel, hs⟩ := exists_of_bind_eq_ok hs
  obtain ⟨phase, hphase, hs⟩ := exists_of_bind_eq_ok hs
  cases hs
  cases hr with
  | operand opens inLevel blank =>
    cases hphase
    obtain ⟨c, more, d, rfl, hd, hnumeral⟩ := hstops.operand hf
    rw [← Digit.toChar_of_ofChar? hd]
    exact caused_by_numeral (endsClear_of_inLevel opens inLevel blank) (List.cons_ne_nil d [])
      hnumeral
  | @numeral level outer u w e k digits opens inLevel blank some_digit place =>
    obtain ⟨v, hv, hphase⟩ := exists_of_bind_eq_ok hphase
    cases hphase
    rw [List.append_assoc (u ++ w)]
    exact caused_after_digit opens inLevel blank some_digit place houter hlevel hv hstops hf
  | @operator sum outer u w v e t opens sums term blank =>
    obtain ⟨b, hb, hphase⟩ := exists_of_bind_eq_ok hphase
    cases hphase
    have hdigit : endsInDigit v = true → NotDigit (e ++ rest) := by
      intro hv
      cases e with
      | nil =>
        have hend := hshows.endsInDigit_eq_false nofun
        rw [List.append_nil, endsInDigit_append _ hv] at hend
        cases hend
      | cons c e =>
        have hc := blank c (List.mem_cons_self ..)
        exact notDigit_cons ⟨Digit.ofChar?_of_blank hc, isForeignDigit_of_blank hc⟩
    rw [List.append_assoc (u ++ w ++ v)]
    exact caused_after_term opens sums term blank houter (evaluate_level_eq_ok hlevel).1 hb hdigit
      hstops hf

end

/-- **A fault of arithmetic is never a false alarm.** -/
theorem arithmetic_fault_cause {settings : Settings} {text : String} {f : Fault}
    (h : evaluate settings text = .error (.fault f))
    (hf : f.kind = .divisionByZero ∨ f.kind = .overflow) :
    ∃ p : Nat, f.position = some (p : Int) ∧ f.character = none ∧
      Cause settings text.toList p f.kind := by
  have harithmetic : f.kind.isArithmetic = true := by
    rcases hf with hf | hf <;> rw [hf] <;> rfl
  have hread : readText settings text.toList = .error f := by
    rcases fault_cases h with ⟨-, rfl⟩ | ⟨-, hr⟩
    · cases harithmetic
    · exact hr
  obtain ⟨u, rest, s, htext, hfeed, hstops⟩ := Reading.exists_stop hread
  rw [Nat.zero_add] at hstops
  have hfollow := Reading.outline_feed (Meaning.values_fails settings) hfeed
  obtain ⟨r, htrees, houtline⟩ := Reading.feed_of_follow (r := .start) Meaning.trees_fails 0 hfollow
  have hvalue : r.evaluate settings = .ok s := by
    rw [Reading.evaluate_feed (r := .start) trivial htrees]
    exact hfeed
  have hcovers : Covers settings.nesting r u := Covers.start.feed htrees
  have hshows : r.outline.Shows settings.nesting u := by
    rw [houtline]
    exact Outline.shows_of_follow hfollow
  rw [htext]
  exact caused_of_stops hcovers hshows hvalue hstops harithmetic

/-- The quotient in the open group: the group after it is zero, and what it divides is the term
after the minus sign. The 3 that no numeral may hold is never come to. -/
theorem quotient_in_open_group_cause :
    evaluate {} "2+(1 -1*10/(1-1)+3" =
        .error (.fault { kind := .divisionByZero, position := some 10 }) ∧
      Cause {} "2+(1 -1*10/(1-1)+3".toList 10 .divisionByZero ∧
      openIn ("2+(1 -1*10/(1-1)+3".toList.take 10) = [⟨3, 6⟩, ⟨0, 2⟩] := by
  have h : evaluate {} "2+(1 -1*10/(1-1)+3" =
      .error (.fault { kind := .divisionByZero, position := some 10 }) := by
    rw [evaluate_eq_readText {} rfl]
    rfl
  obtain ⟨p, hp, -, hcause⟩ := arithmetic_fault_cause h (.inl rfl)
  have hp : p = 10 := by
    cases hp
    rfl
  subst hp
  exact ⟨h, hcause, rfl⟩

end BaseThree
