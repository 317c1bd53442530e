import BaseThree.Text.Quoted
import Mathlib.Algebra.Group.Nat.Defs
import Mathlib.Data.List.Basic

/-! Reading quoted texts back.

What a quoted text is written with can be read again, character by character (`readChar?`): each is
written as something that stands for no other, and that ends by itself. So the closing delimiter is
the first that is read as none, and two quoted texts that begin in the same way are the same
(`encode_append_inj`). And whatever the text is, all that is written can be printed
(`printable_quote`). -/
namespace BaseThree.Text.Quoted

/-! ### Hexadecimal digits -/

def hexValue (c : Char) : Nat := if c.toNat < 0x61 then c.toNat - 0x30 else c.toNat - 0x61 + 10

/-- The number with these hexadecimal digits, most significant first. -/
def readHex (digits : List Char) : Nat :=
  digits.foldl (fun (value : Nat) (c : Char) => 16 * value + hexValue c) 0

theorem hexValue_hexDigit : ∀ n < 16, hexValue (hexDigit n) = n := by decide

theorem length_hex (width n : Nat) : (hex width n).length = width := by
  induction width generalizing n with
  | zero => rfl
  | succ width ih => simp [hex, ih]

theorem readHex_hex (width n : Nat) : readHex (hex width n) = n % 16 ^ width := by
  induction width generalizing n with
  | zero => simp [hex, readHex, Nat.mod_one]
  | succ width ih =>
    have hlast : readHex (hex (width + 1) n) = 16 * readHex (hex width (n / 16)) + n % 16 := by
      rw [hex, readHex, List.foldl_append, List.foldl_cons, List.foldl_nil,
        hexValue_hexDigit _ (Nat.mod_lt n (by decide))]
      rfl
    rw [hlast, ih, Nat.pow_succ', Nat.mod_mul, Nat.add_comm]

/-! ### Reading a character -/

/-- What stands behind a backslash, as far as it belongs to it: a character, and the rest. -/
def readEscape? : List Char → Option (Char × List Char)
  | [] => none
  | 't' :: rest => some ('\t', rest)
  | 'n' :: rest => some ('\n', rest)
  | 'r' :: rest => some ('\r', rest)
  | 'x' :: rest => some (Char.ofNat (readHex (rest.take 2)), rest.drop 2)
  | 'u' :: rest => some (Char.ofNat (readHex (rest.take 4)), rest.drop 4)
  | 'U' :: rest => some (Char.ofNat (readHex (rest.take 8)), rest.drop 8)
  | c :: rest => some (c, rest)

/-- The next character of a text between delimiters, none at its end. -/
def readChar? (delim : Char) : List Char → Option (Char × List Char)
  | [] => none
  | '\\' :: rest => readEscape? rest
  | c :: rest => if c = delim then none else some (c, rest)

theorem delimiter_mem (text : List Char) : delimiter text ∈ ['\x27', '\x22'] := by
  unfold delimiter
  split <;> decide

theorem readEscape?_hex (width : Nat) {c : Char} (h : c.toNat < 16 ^ width) (rest : List Char) :
    (Char.ofNat (readHex ((hex width c.toNat ++ rest).take width)),
      (hex width c.toNat ++ rest).drop width) = (c, rest) := by
  rw [List.take_left' (length_hex ..), List.drop_left' (length_hex ..), readHex_hex,
    Nat.mod_eq_of_lt h, Char.ofNat_toNat]

section
variable {delim : Char}

theorem readChar?_escapeCode (c : Char) (rest : List Char) :
    readChar? delim (escapeCode c.toNat ++ rest) = some (c, rest) := by
  have hsize : c.toNat < 16 ^ 8 := c.val.toNat_lt
  unfold escapeCode
  by_cases hbyte : c.toNat < 0x100
  · rw [if_pos hbyte]
    exact congrArg some (readEscape?_hex 2 hbyte rest)
  rw [if_neg hbyte]
  by_cases hshort : c.toNat < 0x10000
  · rw [if_pos hshort]
    exact congrArg some (readEscape?_hex 4 hshort rest)
  rw [if_neg hshort]
  exact congrArg some (readEscape?_hex 8 hsize rest)

/-- The ways in which a character is written. -/
inductive Written (delim c : Char) : List Char → Prop
  | escaped {mark : Char} (printable : isPrintable mark = true)
    (reads : ∀ rest, readEscape? (mark :: rest) = some (c, rest)) : Written delim c ['\\', mark]
  | plain (printable : isPrintable c = true) (ne_delim : c ≠ delim) (ne_backslash : c ≠ '\\') :
    Written delim c [c]
  | code : Written delim c (escapeCode c.toNat)

theorem written_self (hdelim : delim ∈ ['\x27', '\x22']) {c : Char} (hc : c = delim ∨ c = '\\') :
    Written delim c ['\\', c] := by
  have hmem : c ∈ ['\x27', '\x22', '\\'] := by
    rcases hc with rfl | rfl
    · exact List.mem_append_left ['\\'] hdelim
    · decide
  simp only [List.mem_cons, List.not_mem_nil, or_false] at hmem
  rcases hmem with rfl | rfl | rfl <;> exact .escaped (by decide) fun _ => rfl

theorem written_encodeChar (hdelim : delim ∈ ['\x27', '\x22']) (c : Char) :
    Written delim c (encodeChar delim c) := by
  unfold encodeChar
  by_cases hself : c = delim ∨ c = '\\'
  · rw [if_pos hself]
    exact written_self hdelim hself
  rw [if_neg hself]
  by_cases htab : c = '\t'
  · simpa [htab] using Written.escaped (by decide) fun _ => rfl
  by_cases hfeed : c = '\n'
  · simpa [hfeed] using Written.escaped (by decide) fun _ => rfl
  by_cases hreturn : c = '\r'
  · simpa [hreturn] using Written.escaped (by decide) fun _ => rfl
  rw [if_neg htab, if_neg hfeed, if_neg hreturn]
  by_cases hprintable : isPrintable c = true
  · rw [if_pos hprintable]
    exact .plain hprintable (not_or.1 hself).1 (not_or.1 hself).2
  · rw [if_neg hprintable]
    exact .code

theorem Written.readChar?_append {c : Char} {w : List Char} (h : Written delim c w)
    (rest : List Char) : readChar? delim (w ++ rest) = some (c, rest) := by
  cases h with
  | escaped printable reads => exact reads rest
  | plain printable ne_delim ne_backslash => simp [readChar?, ne_delim]
  | code => exact readChar?_escapeCode c rest

theorem readChar?_delimiter (hdelim : delim ∈ ['\x27', '\x22']) (rest : List Char) :
    readChar? delim (delim :: rest) = none := by
  simp only [List.mem_cons, List.not_mem_nil, or_false] at hdelim
  rcases hdelim with rfl | rfl <;> rfl

/-! ### Reading a text -/

/-- The first character that is written is the next to be read. -/
theorem readChar?_flatMap_cons (hdelim : delim ∈ ['\x27', '\x22']) (c : Char) (a x : List Char) :
    readChar? delim ((c :: a).flatMap (encodeChar delim) ++ x) =
      some (c, a.flatMap (encodeChar delim) ++ x) := by
  rw [List.flatMap_cons, List.append_assoc]
  exact (written_encodeChar hdelim c).readChar?_append _

/-- Up to the delimiter, two texts that are written in the same way are the same. -/
theorem flatMap_encodeChar_inj (hdelim : delim ∈ ['\x27', '\x22']) {a b x y : List Char}
    (h : a.flatMap (encodeChar delim) ++ delim :: x = b.flatMap (encodeChar delim) ++ delim :: y) :
    a = b ∧ x = y := by
  induction a generalizing b with
  | nil =>
    cases b with
    | nil => exact ⟨rfl, (List.cons.inj h).2⟩
    | cons d b =>
      have hnext := congrArg (readChar? delim) h
      rw [readChar?_flatMap_cons hdelim] at hnext
      cases (readChar?_delimiter hdelim x).symm.trans hnext
  | cons c a ih =>
    have hnext := congrArg (readChar? delim) h
    rw [readChar?_flatMap_cons hdelim] at hnext
    cases b with
    | nil => cases hnext.trans (readChar?_delimiter hdelim y)
    | cons d b =>
      rw [readChar?_flatMap_cons hdelim, Option.some.injEq, Prod.mk.injEq] at hnext
      obtain ⟨rfl, hrest⟩ := hnext
      obtain ⟨rfl, hxy⟩ := ih hrest
      exact ⟨rfl, hxy⟩

/-- **A quoted text ends by itself**: what begins with one begins with no other. -/
theorem encode_append_inj {a b x y : List Char} (h : encode a ++ x = encode b ++ y) :
    a = b ∧ x = y := by
  simp only [encode, List.cons_append, List.append_assoc, List.cons.injEq, List.nil_append] at h
  obtain ⟨hdelim, h⟩ := h
  rw [← hdelim] at h
  exact flatMap_encodeChar_inj (delimiter_mem a) h

end

/-! ### Printing -/

theorem isPrintable_of_ascii {c : Char} (h : 0x20 ≤ c.toNat ∧ c.toNat < 0x7f) :
    isPrintable c = true := (isPrintable_ascii h.2).2 h.1

theorem isPrintable_hexDigit : ∀ n < 16, isPrintable (hexDigit n) = true := by decide

theorem isPrintable_of_mem_hex {width n : Nat} {c : Char} (h : c ∈ hex width n) :
    isPrintable c = true := by
  induction width generalizing n with
  | zero => cases h
  | succ width ih =>
    rcases List.mem_append.1 h with h | h
    · exact ih h
    · rw [List.mem_singleton.1 h]
      exact isPrintable_hexDigit _ (Nat.mod_lt n (by decide))

theorem isPrintable_of_mem_escapeCode {n : Nat} {c : Char} (h : c ∈ escapeCode n) :
    isPrintable c = true := by
  have hmark {letter : Char} {width : Nat} (hletter : isPrintable letter = true)
      (h : c ∈ '\\' :: letter :: hex width n) : isPrintable c = true := by
    simp only [List.mem_cons] at h
    rcases h with rfl | rfl | h
    · decide
    · exact hletter
    · exact isPrintable_of_mem_hex h
  unfold escapeCode at h
  split at h
  · exact hmark (by decide) h
  · split at h
    · exact hmark (by decide) h
    · exact hmark (by decide) h

theorem Written.isPrintable_of_mem {delim c d : Char} {w : List Char} (h : Written delim c w)
    (hd : d ∈ w) : isPrintable d = true := by
  cases h with
  | escaped printable reads =>
    simp only [List.mem_cons, List.not_mem_nil, or_false] at hd
    rcases hd with rfl | rfl
    · decide
    · exact printable
  | plain printable ne_delim ne_backslash => rwa [List.mem_singleton.1 hd]
  | code => exact isPrintable_of_mem_escapeCode hd

theorem isPrintable_of_mem_encode {text : List Char} {c : Char} (h : c ∈ encode text) :
    isPrintable c = true := by
  have hdelim : isPrintable (delimiter text) = true :=
    List.all_eq_true.1 (by decide : ['\x27', '\x22'].all isPrintable = true) _ (delimiter_mem text)
  simp only [encode, List.mem_cons, List.mem_append, List.mem_flatMap, List.not_mem_nil,
    or_false] at h
  rcases h with rfl | ⟨d, -, h⟩ | rfl
  · exact hdelim
  · exact (written_encodeChar (delimiter_mem text) d).isPrintable_of_mem h
  · exact hdelim

end BaseThree.Text.Quoted

namespace BaseThree.Text

/-- All of the text can be printed. -/
def Printable (text : String) : Prop := ∀ c ∈ text.toList, isPrintable c = true

instance (text : String) : Decidable (Printable text) :=
  decidable_of_iff (text.toList.all isPrintable = true) List.all_eq_true

theorem Printable.append {a b : String} (ha : Printable a) (hb : Printable b) :
    Printable (a ++ b) := by
  intro c hc
  rw [String.toList_append, List.mem_append] at hc
  exact hc.elim (ha c) (hb c)

theorem printable_quote (text : String) : Printable (quote text) := by
  intro c hc
  rw [quote, String.toList_ofList] at hc
  exact Quoted.isPrintable_of_mem_encode hc

/-- Control characters, the line feed among them (category Cc). -/
def IsControl (c : Char) : Prop := c.toNat < 0x20 ∨ 0x7f ≤ c.toNat ∧ c.toNat ≤ 0x9f

theorem not_isControl_of_isPrintable {c : Char} (h : isPrintable c = true) : ¬IsControl c := by
  by_cases hascii : c.toNat < 0x7f
  · have hlow := (isPrintable_ascii hascii).1 h
    unfold IsControl
    omega
  · intro hcontrol
    have hrange : 0x7f ≤ c.toNat ∧ c.toNat ≤ 0xa0 := by
      unfold IsControl at hcontrol
      omega
    have htable : inRanges unprintableBelowDevanagari c.toNat = true :=
      List.any_eq_true.2 ⟨(0x7f, 0xa0), by decide, by simpa using hrange⟩
    simp [isPrintable, hascii, isUnprintableCode, htable] at h

end BaseThree.Text
