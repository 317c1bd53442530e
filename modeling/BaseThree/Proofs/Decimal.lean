import BaseThree.Proofs.Token
import BaseThree.Text.Integer
import Mathlib.Algebra.Group.Nat.Defs

/-! Integers in decimal.

A `Decimal` is an integer as most people write it: a sign or none, and digits '0' to '9', at least
one of them, with any number of zeros in front. It is one of the many forms that can be read, and
it is read as its value unless it is too long (`readInteger?_text`). The text of every integer has
this form (`exists_decimal`), and it is written if the integer has no more digits than are allowed
(`writeInteger_of_lt`). -/
namespace BaseThree.Text

inductive Sign
  | absent
  | plus
  | minus
  deriving DecidableEq, Repr

def Sign.chars : Sign → List Char
  | absent => []
  | plus => ['+']
  | minus => ['-']

/-- The integer of this sign and size. -/
def Sign.apply : Sign → Nat → Int
  | minus, size => -(size : Int)
  | _, size => size

structure Decimal where
  sign : Sign
  digits : List Char
  digits_ne_nil : digits ≠ []
  isDigit_of_mem : ∀ c ∈ digits, c.isDigit = true

namespace Decimal

def chars (d : Decimal) : List Char := d.sign.chars ++ d.digits

def text (d : Decimal) : String := String.ofList d.chars

def value (d : Decimal) : Int := d.sign.apply (Nat.ofDigitChars 10 d.digits 0)

/-- More digits than an integer is read with, zeros in front included. -/
def isLong (d : Decimal) : Bool := digitLimit < d.digits.length

end Decimal

/-! ### Digits -/

theorem decimalDigit?_of_isDigit {c : Char} (h : c.isDigit = true) :
    decimalDigit? c = some (c.toNat - '0'.toNat) := by
  have hrange : ('0'.toNat ≤ c.toNat && c.toNat < '0'.toNat + 10) = true := by
    simp only [Char.isDigit, Bool.and_eq_true, decide_eq_true_eq] at h ⊢
    have hlo : '0'.toNat ≤ c.toNat := h.1
    have hhi : c.toNat ≤ '9'.toNat := h.2
    exact ⟨hlo, Nat.lt_succ_of_le hhi⟩
  -- These digits are the first of all scripts.
  have hfind : (decimalZeros.find? fun z => z ≤ c.toNat && c.toNat < z + 10) = some '0'.toNat :=
    List.find?_cons_of_pos hrange
  unfold decimalDigit?
  rw [hfind]
  rfl

theorem isDecimalDigit_of_isDigit {c : Char} (h : c.isDigit = true) : isDecimalDigit c = true := by
  unfold isDecimalDigit
  rw [decimalDigit?_of_isDigit h, Option.isSome_some]

theorem isMargin_of_isDigit {c : Char} (h : c.isDigit = true) : isMargin c = false := by
  unfold isMargin
  rw [Token.not_blank_of_isDigit h, Bool.false_and]

theorem ne_of_isDigit {c d : Char} (h : c.isDigit = true) (hd : d.isDigit = false) : c ≠ d := by
  rintro rfl
  rw [h] at hd
  cases hd

theorem readDigits?_digits {digits : List Char} (h : ∀ c ∈ digits, c.isDigit = true) (size : Nat) :
    readDigits? size digits = some (Nat.ofDigitChars 10 digits size) := by
  induction digits generalizing size with
  | nil => rfl
  | cons c rest ih =>
    have hc := h c (List.mem_cons_self ..)
    have hne : c ≠ '_' := ne_of_isDigit hc (by decide)
    rw [readDigits?, decimalDigit?_of_isDigit hc, Option.bind_some,
      ih fun d hd => h d (List.mem_cons_of_mem c hd), Nat.ofDigitChars_cons]
    exact fun _ _ he => absurd he hne

theorem readNatural?_digits {digits : List Char} (hne : digits ≠ [])
    (h : ∀ c ∈ digits, c.isDigit = true) :
    readNatural? digits = some (Nat.ofDigitChars 10 digits 0) := by
  cases digits with
  | nil => exact absurd rfl hne
  | cons c rest =>
    rw [readNatural?, decimalDigit?_of_isDigit (h c (List.mem_cons_self ..)), Option.bind_some,
      readDigits?_digits fun d hd => h d (List.mem_cons_of_mem c hd), Nat.ofDigitChars_cons,
      Nat.mul_zero, Nat.zero_add]

/-! ### Integers -/

theorem trimMargins_of_forall {text : List Char} (h : ∀ c ∈ text, isMargin c = false) :
    trimMargins text = text := by
  have hdrop {l : List Char} (hl : ∀ c ∈ l, isMargin c = false) : l.dropWhile isMargin = l := by
    cases l with
    | nil => rfl
    | cons c rest =>
      exact List.dropWhile_cons_of_neg (Bool.eq_false_iff.1 (hl c (List.mem_cons_self ..)))
  unfold trimMargins
  rw [hdrop h, hdrop fun c hc => h c (List.mem_reverse.1 hc), List.reverse_reverse]

namespace Decimal

theorem isMargin_of_mem (d : Decimal) {c : Char} (hc : c ∈ d.chars) : isMargin c = false := by
  rcases List.mem_append.1 hc with hs | hd
  · cases hsign : d.sign with
    | absent =>
      rw [hsign] at hs
      cases hs
    | plus | minus =>
      rw [hsign] at hs
      rw [List.mem_singleton.1 hs]
      decide
  · exact isMargin_of_isDigit (d.isDigit_of_mem c hd)

theorem readSigned?_chars (d : Decimal) : readSigned? d.chars = some d.value := by
  have hread := readNatural?_digits d.digits_ne_nil d.isDigit_of_mem
  unfold readSigned? value chars
  cases d.sign with
  | plus | minus =>
    simp only [Sign.chars, List.cons_append, List.nil_append, hread]
    rfl
  | absent =>
    obtain ⟨c, rest, hdigits⟩ := List.exists_cons_of_ne_nil d.digits_ne_nil
    have hc := d.isDigit_of_mem c (hdigits ▸ List.mem_cons_self ..)
    have hminus : c ≠ '-' := ne_of_isDigit hc (by decide)
    have hplus : c ≠ '+' := ne_of_isDigit hc (by decide)
    simp only [Sign.chars, List.nil_append]
    rw [hdigits] at hread ⊢
    split
    · rename_i he
      exact absurd (List.cons.inj he).1 hminus
    · rename_i he
      exact absurd (List.cons.inj he).1 hplus
    · rw [hread]
      rfl

/-- A sign is no digit. -/
theorem countP_chars (d : Decimal) : d.chars.countP isDecimalDigit = d.digits.length := by
  have hsign : d.sign.chars.countP isDecimalDigit = 0 := by
    cases d.sign <;> decide
  have hdigits : d.digits.countP isDecimalDigit = d.digits.length :=
    List.countP_eq_length.2 fun c hc => isDecimalDigit_of_isDigit (d.isDigit_of_mem c hc)
  unfold chars
  rw [List.countP_append, hsign, hdigits, Nat.zero_add]

/-- **A decimal is read as its value, unless it is too long.** -/
theorem readInteger?_text (d : Decimal) :
    readInteger? d.text = if d.isLong then none else some d.value := by
  have htrim : trimMargins d.chars = d.chars := trimMargins_of_forall fun c => d.isMargin_of_mem
  unfold readInteger? isLong text
  rw [String.toList_ofList, htrim, readSigned?_chars, countP_chars]
  simp only [decide_eq_true_eq]

end Decimal

/-- The text of an integer is a decimal of that value. -/
theorem exists_decimal (n : Int) : ∃ d : Decimal, d.text = toString n ∧ d.value = n := by
  have hdigits (m : Nat) : ∀ c ∈ Nat.toDigits 10 m, c.isDigit = true := fun c hc =>
    Nat.isDigit_of_mem_toDigits (by decide) (Nat.le_refl _) hc
  have hrepr (m : Nat) : m.repr = String.ofList (Nat.toDigits 10 m) := Nat.repr_eq_ofList_toDigits
  rw [Int.toString_eq_repr, Int.repr_eq_if]
  split
  · refine ⟨⟨.absent, Nat.toDigits 10 n.toNat, Nat.toDigits_ne_nil, hdigits _⟩, ?_, ?_⟩
    · exact (hrepr n.toNat).symm
    · show ((Nat.ofDigitChars 10 (Nat.toDigits 10 n.toNat) 0 : Nat) : Int) = n
      rw [Nat.ofDigitChars_ten_toDigits]
      omega
  · refine ⟨⟨.minus, Nat.toDigits 10 (-n).toNat, Nat.toDigits_ne_nil, hdigits _⟩, ?_, ?_⟩
    · rw [hrepr, ← String.ofList_toList (s := "-"), ← String.ofList_append]
      rfl
    · show -((Nat.ofDigitChars 10 (Nat.toDigits 10 (-n).toNat) 0 : Nat) : Int) = n
      rw [Nat.ofDigitChars_ten_toDigits]
      omega

theorem readSigned?_toString (n : Int) : readSigned? (toString n).toList = some n := by
  obtain ⟨d, hd, hn⟩ := exists_decimal n
  rw [← hd, Decimal.text, String.toList_ofList, d.readSigned?_chars, hn]

theorem toString_int_injective : Function.Injective (toString : Int → String) := by
  intro m n h
  have hm := readSigned?_toString m
  rw [h, readSigned?_toString n] at hm
  exact (Option.some.inj hm).symm

theorem mem_toString_int {n : Int} {c : Char} (h : c ∈ (toString n).toList) :
    c ∈ ['+', '-'] ∨ c.isDigit = true := by
  obtain ⟨d, hd, -⟩ := exists_decimal n
  rw [← hd, Decimal.text, String.toList_ofList] at h
  rcases List.mem_append.1 h with h | h
  · cases hsign : d.sign <;> simp_all [Sign.chars]
  · exact .inr (d.isDigit_of_mem c h)

/-! ### Writing -/

theorem length_toDigits_le_iff {n : Int} :
    (Nat.toDigits 10 n.natAbs).length ≤ digitLimit ↔ n.natAbs < 10 ^ digitLimit :=
  Nat.length_toDigits_le_iff (by decide) (by decide)

theorem writeInteger_of_lt {n : Int} (h : n.natAbs < 10 ^ digitLimit) :
    writeInteger n = .ok (toString n) :=
  if_neg (Nat.not_lt.2 (length_toDigits_le_iff.2 h))

theorem writeInteger_of_le {n : Int} (h : 10 ^ digitLimit ≤ n.natAbs) :
    writeInteger n = .error {} :=
  if_pos (Nat.lt_of_not_le fun hle => Nat.not_lt.2 h (length_toDigits_le_iff.1 hle))

end BaseThree.Text
