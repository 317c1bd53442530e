import BaseThree.Parentheses
import BaseThree.Proofs.Expression.Form

/-! What a fault of form says.

Its kind follows from the text alone (`diagnosis`): from the last character before it that
is not blank, from whether a numeral has just ended there, and from how many parentheses
stand open. The outline of what has been read shows all three (`Outline.Shows`). -/
namespace BaseThree
open Evaluation Grammar

/-! ### What a text shows -/

/-- The last character that is not blank. -/
def lastMark (u : List Char) : Option Char := (u.filter fun c => !Text.isBlank c).getLast?

/-- Whether an operand has to follow. -/
def wantsOperand (u : List Char) : Bool :=
  match lastMark u with
  | none => true
  | some c => c ∈ ['+', '-', '*', '/', '(']

/-- Whether a numeral ends exactly where the text does. -/
def endsInDigit (u : List Char) : Bool := u.getLast?.any fun c => c ∈ ['0', '1', '2']

/-- What is wrong with a character that cannot follow `u`, or with an end there. -/
def diagnosis (u : List Char) (c : Option Char) : Fault.Kind :=
  if wantsOperand u then
    match c with
    | none => .unexpectedEnd
    | some c =>
      if isForeignDigit c then .invalidDigit
      else if c = '(' then .nestingTooDeep else .unexpectedCharacter
  else if endsInDigit u && c.any isForeignDigit then .invalidDigit
  else if 0 < balance u then .missingParenthesis
  else .trailingContent

section
variable {u : List Char} {c : Char}

theorem lastMark_blank (h : Text.isBlank c = true) : lastMark (u ++ [c]) = lastMark u := by
  simp [lastMark, h]

theorem lastMark_mark (h : Text.isBlank c = false) : lastMark (u ++ [c]) = some c := by
  simp [lastMark, h]

theorem wantsOperand_blank (h : Text.isBlank c = true) :
    wantsOperand (u ++ [c]) = wantsOperand u := by
  simp only [wantsOperand, lastMark_blank h]

theorem wantsOperand_mark (h : Text.isBlank c = false) :
    wantsOperand (u ++ [c]) = decide (c ∈ ['+', '-', '*', '/', '(']) := by
  simp only [wantsOperand, lastMark_mark h]

theorem endsInDigit_concat : endsInDigit (u ++ [c]) = decide (c ∈ ['0', '1', '2']) := by
  simp [endsInDigit]

theorem endsInDigit_append (u : List Char) {w : List Char} (h : endsInDigit w = true) :
    endsInDigit (u ++ w) = true := by
  unfold endsInDigit at h ⊢
  cases hw : w.getLast? with
  | none =>
    rw [hw] at h
    cases h
  | some c =>
    rw [List.getLast?_append, hw, Option.some_or, ← hw]
    exact h

end

/-! ### What an outline shows -/

/-- The outline agrees with the text it comes from. -/
structure Outline.Shows (nesting : Nat) (o : Outline) (u : List Char) : Prop where
  operand : o.stage = .operand ↔ wantsOperand u = true
  numeral : o.stage = .numeral ↔ endsInDigit u = true
  depth : (o.depth : Int) = balance u
  depth_le : o.depth ≤ nesting
  factor : o.stage ≠ .operand → ∃ c ∈ ['0', '1', '2', ')'], lastMark u = some c

namespace Outline
variable {nesting : Nat} {o : Outline} {u : List Char}

theorem shows_start : start.Shows nesting [] where
  operand := by decide
  numeral := by decide
  depth := rfl
  depth_le := Nat.zero_le _
  factor h := absurd rfl h

/-- A character that is not blank shows by itself where it leads. -/
theorem shows_mark {c : Char} {stage : Stage} {depth : Nat} (hb : Text.isBlank c = false)
    (hoperand : stage = .operand ↔ c ∈ ['+', '-', '*', '/', '('])
    (hnumeral : stage = .numeral ↔ c ∈ ['0', '1', '2'])
    (hfactor : stage ≠ .operand → c ∈ ['0', '1', '2', ')'])
    (hdepth : (depth : Int) = balance u + balance [c]) (hle : depth ≤ nesting) :
    (⟨stage, depth⟩ : Outline).Shows nesting (u ++ [c]) where
  operand := by rw [wantsOperand_mark hb, decide_eq_true_iff, hoperand]
  numeral := by rw [endsInDigit_concat, decide_eq_true_iff, hnumeral]
  depth := by rw [balance_append, hdepth]
  depth_le := hle
  factor h := ⟨c, hfactor h, lastMark_mark hb⟩

theorem Shows.blank (h : o.Shows nesting u) {c : Char} (hb : Text.isBlank c = true) :
    (⟨if o.stage = .operand then .operand else .operator, o.depth⟩ : Outline).Shows nesting
      (u ++ [c]) where
  operand := by
    rw [wantsOperand_blank hb, ← h.operand]
    by_cases hs : o.stage = .operand <;> simp [hs]
  numeral := by
    have hdigit : c ∉ ['0', '1', '2'] := by
      intro hc
      obtain ⟨d, hd⟩ := Digit.ofChar?_eq_some_iff.2 hc
      rw [Digit.ofChar?_of_blank hb] at hd
      cases hd
    rw [endsInDigit_concat, decide_eq_true_iff]
    by_cases hs : o.stage = .operand <;> simp [hs, hdigit]
  depth := by
    have hopen : c ≠ '(' := by
      rintro rfl
      cases hb
    have hclose : c ≠ ')' := by
      rintro rfl
      cases hb
    rw [balance_append, balance_of_ne hopen hclose, Int.add_zero]
    exact h.depth
  depth_le := h.depth_le
  factor hs := by
    rw [lastMark_blank hb]
    exact h.factor fun hstage => hs (if_pos hstage)

theorem Shows.move (h : o.Shows nesting u) {c : Char} {o' : Outline} (hm : o.Move nesting c o') :
    o'.Shows nesting (u ++ [c]) := by
  have hdepth := h.depth
  have hle := h.depth_le
  have hsame : (o.depth : Int) = balance u + 0 := by omega
  cases hm with
  | blank hb => exact h.blank hb
  | opening hs hd =>
    have hbalance : ((o.depth + 1 : Nat) : Int) = balance u + 1 := by omega
    exact shows_mark rfl (by decide) (by decide) (by decide) hbalance (by omega)
  | @digit c d hd =>
    have hc := Digit.ofChar?_eq_some_iff.1 ⟨d, hd⟩
    simp only [List.mem_cons, List.not_mem_nil, or_false] at hc
    rcases hc with rfl | rfl | rfl <;>
      exact shows_mark rfl (by decide) (by decide) (by decide) hsame hle
  | @operator c p op hs hop =>
    have hc := Precedence.mem_of_operator? hop
    cases p <;> simp only [List.mem_cons, List.not_mem_nil, or_false] at hc <;>
      rcases hc with rfl | rfl <;>
      exact shows_mark rfl (by decide) (by decide) (by decide) hsame hle
  | closing hs hd =>
    have hbalance : ((o.depth - 1 : Nat) : Int) = balance u + -1 := by omega
    exact shows_mark rfl (by decide) (by decide) (by decide) hbalance (by omega)

theorem Shows.follow (h : o.Shows nesting u) {w : List Char} {o' : Outline}
    (hw : o.follow nesting w = some o') : o'.Shows nesting (u ++ w) := by
  induction w generalizing o u with
  | nil =>
    cases hw
    rw [List.append_nil]
    exact h
  | cons c rest ih =>
    unfold Outline.follow at hw
    split at hw
    · rename_i haccepts
      have hrest := ih (h.move (move_of_accepts haccepts)) hw
      rw [List.append_assoc] at hrest
      exact hrest
    · cases hw

theorem Shows.closing (h : o.Shows nesting u) :
    o.closing = if 0 < balance u then .missingParenthesis else .trailingContent := by
  have hdepth := h.depth
  unfold Outline.closing
  by_cases hd : o.depth = 0
  · rw [if_pos hd, if_neg (by omega)]
  · rw [if_neg hd, if_pos (by omega)]

theorem Shows.wantsOperand_eq_false (h : o.Shows nesting u) (hs : o.stage ≠ .operand) :
    wantsOperand u = false :=
  Bool.eq_false_iff.2 fun hw => hs (h.operand.2 hw)

theorem Shows.endsInDigit_eq_false (h : o.Shows nesting u) (hs : o.stage ≠ .numeral) :
    endsInDigit u = false :=
  Bool.eq_false_iff.2 fun hd => hs (h.numeral.2 hd)

theorem Shows.rejection (h : o.Shows nesting u) (c : Char) :
    o.rejection c = diagnosis u (some c) := by
  unfold Outline.rejection diagnosis
  cases hs : o.stage with
  | operand =>
    rw [if_pos (h.operand.1 hs)]
    by_cases hp : c = '('
    · subst hp
      rfl
    · simp only [if_neg hp]
  | numeral =>
    have hwants : wantsOperand u = false := h.wantsOperand_eq_false (by rw [hs]; decide)
    have hdigit : endsInDigit u = true := h.numeral.1 hs
    simp only [hwants, hdigit, Bool.false_eq_true, if_false, Bool.true_and, Option.any_some]
    rw [h.closing]
  | operator =>
    have hwants : wantsOperand u = false := h.wantsOperand_eq_false (by rw [hs]; decide)
    have hdigit : endsInDigit u = false := h.endsInDigit_eq_false (by rw [hs]; decide)
    simp only [hwants, hdigit, Bool.false_eq_true, if_false, Bool.false_and]
    rw [h.closing]

theorem Shows.shortfall (h : o.Shows nesting u) (hc : o.complete = false) :
    o.shortfall = diagnosis u none := by
  have hdepth := h.depth
  unfold Outline.shortfall diagnosis
  by_cases hs : o.stage = .operand
  · rw [if_pos hs, if_pos (h.operand.1 hs)]
  · have hopen : o.depth ≠ 0 := by
      intro hd
      simp [complete, hs, hd] at hc
    rw [if_neg hs, h.wantsOperand_eq_false hs, if_pos (by omega : 0 < balance u)]
    simp

theorem shows_of_follow {nesting : Nat} {o : Outline} {u : List Char}
    (h : start.follow nesting u = some o) : o.Shows nesting u :=
  shows_start.follow h

/-- Where a group may not begin, as many are open as may be. -/
theorem Shows.balance_of_rejected (h : o.Shows nesting u) {c : Char}
    (hc : o.accepts nesting c = false) (hk : o.rejection c = .nestingTooDeep) :
    balance u = nesting := by
  have hdepth := h.depth
  have hle := h.depth_le
  obtain ⟨hs, rfl⟩ := rejection_eq_nestingTooDeep hk
  have hfull : ¬o.depth < nesting := by
    intro hlt
    simp [accepts, hs, hlt] at hc
  omega

end Outline

/-! ### Faults -/

/-- **A fault of form is the diagnosis of the text before it and the character there.** Groups
that are too deep are as many as are allowed; a text that wants no operand ends in a digit or a
closing parenthesis; content is trailing only where there is some; and no blank is at fault. -/
theorem fault_diagnosis {settings : Settings} {text : String} {f : Fault}
    (h : evaluate settings text = .error (.fault f))
    (hf : f.kind ∉ [.emptyInput, .divisionByZero, .overflow]) :
    ∃ p : Nat, f.position = some (p : Int) ∧ p ≤ text.toList.length ∧
      f.character = text.toList[p]?.map String.singleton ∧
      f.kind = diagnosis (text.toList.take p) text.toList[p]? ∧
      (f.kind = .nestingTooDeep → balance (text.toList.take p) = settings.nesting) ∧
      (wantsOperand (text.toList.take p) = false →
        ∃ c ∈ ['0', '1', '2', ')'], lastMark (text.toList.take p) = some c) ∧
      (f.kind = .trailingContent → p < text.toList.length) ∧
      (∀ c, text.toList[p]? = some c → Text.isBlank c = false) := by
  obtain ⟨hread, hform⟩ := readText_of_fault h hf
  obtain ⟨p, o, hp, hposition, ho, hend⟩ := readText_error hread hform
  have hshows := Outline.shows_of_follow ho
  have hfactor : wantsOperand (text.toList.take p) = false →
      ∃ c ∈ ['0', '1', '2', ')'], lastMark (text.toList.take p) = some c := by
    intro hw
    refine hshows.factor fun hs => ?_
    rw [hshows.operand.1 hs] at hw
    cases hw
  refine ⟨p, hposition, hp, ?_⟩
  rcases hend with ⟨c, hget, hc, hkind, hcharacter⟩ | ⟨rfl, hc, hkind, hcharacter⟩
  · have hlt : p < text.toList.length := (List.getElem?_eq_some_iff.1 hget).1
    rw [hget]
    refine ⟨hcharacter, ?_, fun hk => ?_, hfactor, fun _ => hlt, fun c' hc' => ?_⟩
    · rw [hkind]
      exact hshows.rejection c
    · exact hshows.balance_of_rejected hc (hkind.symm.trans hk)
    · cases hc'
      cases hb : Text.isBlank c with
      | false => rfl
      | true =>
        rw [Outline.accepts_of_blank hb] at hc
        cases hc
  · have hmem := o.shortfall_mem
    rw [List.getElem?_eq_none (Nat.le_refl _)]
    refine ⟨hcharacter, ?_, fun hk => ?_, hfactor, fun hk => ?_, nofun⟩
    · rw [hkind]
      exact hshows.shortfall hc
    · rw [← hkind, hk] at hmem
      exact absurd hmem (by decide)
    · rw [← hkind, hk] at hmem
      exact absurd hmem (by decide)

/-- The digit does not go on the numeral before the parenthesis, so it is the outer group that is
at fault. -/
theorem digit_after_group_diagnosis :
    evaluate {} "((1)3" = .error (.fault
        { kind := .missingParenthesis, position := some 4, character := some "3" }) ∧
      diagnosis "((1)".toList (some '3') = .missingParenthesis := by
  have h : evaluate {} "((1)3" = .error (.fault
      { kind := .missingParenthesis, position := some 4, character := some "3" }) := by
    rw [evaluate_eq_readText {} rfl]
    rfl
  obtain ⟨p, hp, -, -, hkind, -⟩ := fault_diagnosis h (by decide)
  have hp : p = 4 := by
    cases hp
    rfl
  subst hp
  exact ⟨h, hkind.symm⟩

end BaseThree
