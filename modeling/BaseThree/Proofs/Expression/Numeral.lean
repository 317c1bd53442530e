import BaseThree.Proofs.Expression.Value
import BaseThree.Proofs.Settings

/-! Numerals as expressions.

`evaluate_numeral`: the numeral of a value that is not negative evaluates to that value, if it
is in range. An expression does not begin with a sign, so a negative value is the value of a
difference; the least value of a range, which is farther from zero than any other, needs one
more. -/
namespace BaseThree
open Evaluation Grammar

namespace Grammar

/-- Digits by themselves are a term. -/
theorem derives_digits {digits : List Digit} (k : Nat) (h : digits ≠ []) :
    Derives .term k (digits.map Digit.toChar) (.numeral k digits) :=
  .factor (.numeral (b := []) (k := k) isBlank_nil (.number h))

/-- An expression less a numeral. -/
theorem derives_less {w : List Char} {t : Tree} (left : Derives .expression 0 w t)
    {digits : List Digit} (h : digits ≠ []) :
    Derives .expression 0 (w ++ '-' :: digits.map Digit.toChar)
      (.operation .minus w.length t (.numeral (w.length + 1) digits)) := by
  have hminus : Precedence.additive.operator? '-' = some .minus := rfl
  have hsum := Derives.sum (b := []) left isBlank_nil hminus
    (derives_digits (0 + w.length + 0 + 1) h)
  simpa using hsum

theorem isTree_of_derives {settings : Settings} {text : List Char} {t : Tree}
    (h : Derives .expression 0 text t) (hn : t.nesting = 0) : IsTree settings text t :=
  ⟨⟨text, [], (List.append_nil text).symm, isBlank_nil, h⟩, by omega⟩

theorem value_less {settings : Settings} {t : Tree} {a : Int} (ht : t.value settings = .ok a)
    (place k : Nat) (digits : List Digit) :
    (Tree.operation .minus place t (.numeral k digits)).value settings =
      Tree.ranged settings k (Numeral.ofDigits digits) >>=
        fun b => Tree.ranged settings place (a - b) := by
  simp only [Tree.value, ht, ok_bind, Operator.result?]

end Grammar

variable {settings : Settings} {v : Int}

theorem evaluate_digits {text : String} {digits : List Digit} (h : digits ≠ [])
    (ht : text.toList = digits.map Digit.toChar) :
    evaluate settings text =
      (Tree.ranged settings 0 (Numeral.ofDigits digits)).mapError Failure.fault := by
  refine evaluate_of_isTree (t := .numeral 0 digits) ?_
  rw [ht]
  exact isTree_of_derives (.term (derives_digits 0 h)) rfl

/-- The numeral of a value that is not negative. -/
theorem evaluate_text_of_nonneg (hv : 0 ≤ v) :
    evaluate settings (Numeral.text v) = (Tree.ranged settings 0 v).mapError Failure.fault := by
  rw [evaluate_digits (Numeral.digits_ne_nil v) (Numeral.toList_text_of_nonneg hv),
    Numeral.ofDigits_digits, Int.natAbs_of_nonneg hv]

/-- No expression begins with a sign. -/
theorem evaluate_text_of_neg (hv : v < 0) :
    evaluate settings (Numeral.text v) =
      .error (.fault (.found .unexpectedCharacter 0 (some '-'))) := by
  have ht := Numeral.toList_text_of_neg hv
  have hb : isBlankText (Numeral.text v).toList = false := by
    rw [ht]
    rfl
  rw [evaluate_eq_readText settings hb, ht]
  rfl

/-! ### Negative values -/

/-- Zero less the size of a value. -/
def zeroLess (v : Int) : Tree :=
  .operation .minus 1 (.numeral 0 (Numeral.digits 0)) (.numeral 2 (Numeral.digits v))

theorem derives_zeroLess (hv : v < 0) :
    Derives .expression 0 ("0" ++ Numeral.text v).toList (zeroLess v) := by
  rw [String.toList_append, Numeral.toList_text_of_neg hv]
  exact derives_less (.term (derives_digits 0 (Numeral.digits_ne_nil 0))) (Numeral.digits_ne_nil v)

theorem value_zeroLess (hv : v < 0) :
    (zeroLess v).value settings =
      Tree.ranged settings 2 (-v) >>= fun size => Tree.ranged settings 1 (-size) := by
  have hsize : (Numeral.ofDigits (Numeral.digits v) : Int) = -v := by
    rw [Numeral.ofDigits_digits]
    omega
  have hzero : (Tree.numeral 0 (Numeral.digits 0)).value settings = .ok 0 :=
    Tree.ranged_of_inRange settings.inRange_zero
  simp only [zeroLess, value_less hzero, hsize, Int.zero_sub]

theorem value_zeroLess_of_inRange (hv : v < 0) (h : settings.inRange (-v) = true) :
    (zeroLess v).value settings = .ok v := by
  have hrange : settings.inRange v = true := by
    have hneg := Settings.inRange_neg (by omega) h
    rw [Int.neg_neg] at hneg
    exact hneg
  rw [value_zeroLess hv, Tree.ranged_of_inRange h, ok_bind, Int.neg_neg,
    Tree.ranged_of_inRange hrange]

theorem value_zeroLess_of_not_inRange (hv : v < 0) (h : settings.inRange (-v) = false) :
    (zeroLess v).value settings = .error { kind := .overflow, position := some 2 } := by
  rw [value_zeroLess hv, Tree.ranged, if_neg (by rw [h]; decide)]
  rfl

theorem evaluate_zeroLess (hv : v < 0) :
    evaluate settings ("0" ++ Numeral.text v) =
      if settings.inRange (-v) then .ok v
      else .error (.fault { kind := .overflow, position := some 2 }) := by
  rw [evaluate_of_isTree (isTree_of_derives (derives_zeroLess hv) rfl)]
  cases h : settings.inRange (-v) with
  | true =>
    rw [value_zeroLess_of_inRange hv h]
    rfl
  | false =>
    rw [value_zeroLess_of_not_inRange hv h]
    rfl

/-- The least value is one less than the least that is a difference from zero. -/
theorem evaluate_minValue (ho : settings.overflow = .error) :
    evaluate settings ("0" ++ Numeral.text (settings.minValue + 1) ++ "-1") =
      .ok settings.minValue := by
  have hmin := settings.minValue_eq
  have hmax := settings.maxValue_pos
  have hneg : settings.minValue + 1 < 0 := by omega
  have hrange {u : Int} (hl : settings.minValue ≤ u) (hu : u ≤ settings.maxValue) :
      settings.inRange u = true := (Settings.inRange_iff_of_error ho).2 ⟨hl, hu⟩
  have hleft := value_zeroLess_of_inRange hneg (hrange (by omega) (by omega))
  have htree := derives_less (derives_zeroLess hneg) (List.cons_ne_nil (1 : Digit) [])
  rw [← show ("-1" : String).toList = '-' :: [1].map Digit.toChar from rfl,
    ← String.toList_append] at htree
  have hone : (Numeral.ofDigits [1] : Int) = 1 := rfl
  rw [evaluate_of_isTree (isTree_of_derives htree rfl), value_less hleft, hone,
    Tree.ranged_of_inRange (hrange (by omega) (by omega)), ok_bind, Int.add_sub_cancel,
    Tree.ranged_of_inRange (hrange (by omega) (by omega))]
  rfl

theorem exists_text (h : settings.inRange v = true) : ∃ text, evaluate settings text = .ok v := by
  rcases Int.lt_or_le v 0 with hv | hv
  · cases hneg : settings.inRange (-v) with
    | true => exact ⟨_, by rw [evaluate_zeroLess hv, if_pos hneg]⟩
    | false =>
      obtain ⟨ho, rfl⟩ := (Settings.inRange_neg_eq_false_iff h).1 hneg
      exact ⟨_, evaluate_minValue ho⟩
  · exact ⟨_, by rw [evaluate_text_of_nonneg hv, Tree.ranged_of_inRange h]; rfl⟩

/-! ### Digits -/

theorem evaluateToNumeral_digits {text : String} {digits : List Digit} (h : digits ≠ [])
    (ht : text.toList = digits.map Digit.toChar)
    (hrange : settings.inRange (Numeral.ofDigits digits) = true) :
    evaluateToNumeral settings text = .ok (String.ofList (Numeral.trimmed text.toList)) := by
  have htext : Numeral.text (Numeral.ofDigits digits) =
      String.ofList (Numeral.trimmed text.toList) := by
    rw [← String.toList_inj, Numeral.toList_text_of_nonneg (Int.natCast_nonneg _),
      Numeral.map_digits_ofDigits, ht, String.toList_ofList]
  rw [evaluateToNumeral, evaluate_digits h ht, Tree.ranged_of_inRange hrange, ← htext]
  rfl

/-- **Numerals are read as they are written.** A value that is not negative is that of its numeral,
if it is in range; a negative one is that of zero less its size, if that is; and what is left of
the range, its least value, is one less than such a difference. Digits are the numeral of their
value but for zeros in front. -/
theorem evaluate_numeral (settings : Settings) :
    (∀ v, 0 ≤ v → evaluate settings (Numeral.text v) =
      if settings.inRange v then .ok v
      else .error (.fault { kind := .overflow, position := some 0 })) ∧
    (∀ v, v < 0 →
      evaluate settings (Numeral.text v) = .error (.fault
        { kind := .unexpectedCharacter, position := some 0, character := some "-" }) ∧
      evaluate settings ("0" ++ Numeral.text v) =
        if settings.inRange (-v) then .ok v
        else .error (.fault { kind := .overflow, position := some 2 })) ∧
    (settings.overflow = .error →
      settings.inRange settings.minValue = true ∧
      evaluate settings ("0" ++ Numeral.text settings.minValue) =
        .error (.fault { kind := .overflow, position := some 2 }) ∧
      evaluate settings ("0" ++ Numeral.text (settings.minValue + 1) ++ "-1") =
        .ok settings.minValue) ∧
    (∀ v, settings.inRange v = true → ∃ text, evaluate settings text = .ok v) ∧
    (settings.overflow = .unbounded → ∀ text : String, text ≠ "" →
      (∀ c ∈ text.toList, c ∈ ['0', '1', '2']) →
      evaluateToNumeral settings text = .ok (String.ofList (Numeral.trimmed text.toList))) := by
  refine ⟨fun v hv => ?_, fun v hv => ⟨evaluate_text_of_neg hv, evaluate_zeroLess hv⟩,
    fun ho => ⟨settings.inRange_minValue, ?_, evaluate_minValue ho⟩, fun v hv => exists_text hv,
    fun ho text hne h => ?_⟩
  · rw [evaluate_text_of_nonneg hv, Tree.ranged]
    cases settings.inRange v <;> rfl
  · have hneg := (Settings.inRange_neg_eq_false_iff settings.inRange_minValue).2 ⟨ho, rfl⟩
    rw [evaluate_zeroLess settings.minValue_neg, if_neg (by rw [hneg]; decide)]
  · obtain ⟨digits, hdigits⟩ := Numeral.exists_digits h
    have hsome : digits ≠ [] := by
      rintro rfl
      exact hne (String.toList_inj.1 hdigits)
    exact evaluateToNumeral_digits hsome hdigits (Settings.inRange_of_unbounded ho _)

/-- In thirty-two bits the size of the least value is one too many. -/
theorem evaluate_least_numeral :
    evaluate {overflow := .error, bits := 32} (Numeral.text 2147483648) =
        .error (.fault { kind := .overflow, position := some 0 }) ∧
      evaluate {overflow := .error, bits := 32} ("0" ++ Numeral.text (-2147483648)) =
        .error (.fault { kind := .overflow, position := some 2 }) ∧
      evaluate {overflow := .error, bits := 32} ("0" ++ Numeral.text (-2147483647) ++ "-1") =
        .ok (-2147483648) ∧
      evaluateToNumeral {} "0021" = .ok "21" := by
  obtain ⟨hnonneg, hneg, hleast, -, -⟩ := evaluate_numeral {overflow := .error, bits := 32}
  obtain ⟨-, -, -, -, hdigits⟩ := evaluate_numeral {}
  refine ⟨?_, ?_, ?_, ?_⟩
  · exact (hnonneg 2147483648 (by decide)).trans (if_neg (by decide))
  · exact ((hneg (-2147483648) (by decide)).2).trans (if_neg (by decide))
  · exact (hleast rfl).2.2
  · exact hdigits rfl "0021" (by decide) (by simp)

end BaseThree
