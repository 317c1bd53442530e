import BaseThree.Fault
import BaseThree.Proofs.Decimal
import BaseThree.Proofs.Quoted
import Mathlib.Data.Set.Image

/-! What the texts of faults say.

A fault has two texts, and each tells it from every other (`texts_injective`). No text of a kind
begins with that of another; a character is quoted, so that nothing in it can be taken for what
stands behind it; and a position is a decimal, which holds no comma. -/
namespace BaseThree.Fault

/-! ### Kinds -/

/-- No text that `f` gives to a kind begins with that of another kind. -/
def PrefixFree (f : Kind → String) : Prop :=
  ∀ k ∈ Kind.all, ∀ l ∈ Kind.all, (f k).toList <+: (f l).toList → k = l

instance (f : Kind → String) : Decidable (PrefixFree f) :=
  inferInstanceAs (Decidable (∀ k ∈ Kind.all, ∀ l ∈ Kind.all, _))

theorem prefixFree_text : PrefixFree Kind.text := by decide +kernel

theorem prefixFree_name : PrefixFree Kind.name := by decide +kernel

theorem PrefixFree.append_inj {f : Kind → String} (hf : PrefixFree f) {k l : Kind}
    {x y : List Char} (h : (f k).toList ++ x = (f l).toList ++ y) : k = l ∧ x = y := by
  have hk : (f k).toList <+: (f l).toList ++ y := ⟨x, h⟩
  have hkind : k = l := by
    rcases List.prefix_or_prefix_of_prefix hk (List.prefix_append _ y) with hp | hp
    · exact hf k k.mem_all l l.mem_all hp
    · exact (hf l l.mem_all k k.mem_all hp).symm
  subst hkind
  exact ⟨rfl, List.append_cancel_left h⟩

/-! ### Quoted characters -/

theorem quote_append_inj {c d : String} {x y : List Char}
    (h : (Text.quote c).toList ++ x = (Text.quote d).toList ++ y) : c = d ∧ x = y := by
  simp only [Text.quote, String.toList_ofList] at h
  obtain ⟨hcd, hxy⟩ := Text.Quoted.encode_append_inj h
  exact ⟨String.toList_injective hcd, hxy⟩

theorem mem_of_eq_quote_append {a : Char} {c : String} {x y : List Char}
    (h : a :: x = (Text.quote c).toList ++ y) : a ∈ ['\x27', '\x22'] := by
  have hdelim := Text.Quoted.delimiter_mem c.toList
  simp only [Text.quote, String.toList_ofList, Text.Quoted.encode, List.cons_append] at h
  rwa [(List.cons.inj h).1]

/-! ### Positions and characters in messages -/

theorem positionText_injective : Function.Injective positionText := by
  rw [Option.injective_iff]
  constructor
  · intro p q h
    have hlist := congrArg String.toList h
    simp only [Function.comp_apply, positionText, String.toList_append,
      List.append_right_inj] at hlist
    exact Text.toString_int_injective (String.toList_injective hlist)
  · rintro ⟨p, h⟩
    simp [positionText] at h

/-- A position is not taken for a character, which begins with a delimiter. -/
theorem positionText_ne_characterText (p : Option Int) (c : String) (x : List Char) :
    (positionText p).toList ≠ (characterText (some c)).toList ++ x := by
  intro h
  cases p with
  | none => simp [positionText, characterText] at h
  | some p =>
    have hletter : 'a' :: ("t position ".toList ++ (toString p).toList) =
        (Text.quote c).toList ++ x := by
      simpa [positionText, characterText] using h
    exact absurd (mem_of_eq_quote_append hletter) (by decide)

theorem characterText_append_inj {c d : Option String} {p q : Option Int}
    (h : (characterText c).toList ++ (positionText p).toList =
      (characterText d).toList ++ (positionText q).toList) : c = d ∧ p = q := by
  cases c with
  | none =>
    cases d with
    | none => exact ⟨rfl, positionText_injective (String.toList_injective h)⟩
    | some d => exact absurd h (positionText_ne_characterText p d _)
  | some c =>
    cases d with
    | none => exact absurd h.symm (positionText_ne_characterText q c _)
    | some d =>
      simp only [characterText, String.toList_append, List.append_assoc] at h
      obtain ⟨rfl, hrest⟩ := quote_append_inj (List.append_cancel_left h)
      exact ⟨rfl, positionText_injective (String.toList_injective hrest)⟩

theorem eq_of_parts {f g : Fault} (hkind : f.kind = g.kind) (hposition : f.position = g.position)
    (hcharacter : f.character = g.character) : f = g := by
  cases f
  cases g
  simp_all

theorem message_injective : Function.Injective message := by
  intro f g h
  have hlist := congrArg String.toList h
  simp only [message, String.toList_append, List.append_assoc] at hlist
  obtain ⟨hkind, hrest⟩ := prefixFree_text.append_inj hlist
  obtain ⟨hcharacter, hposition⟩ := characterText_append_inj hrest
  exact eq_of_parts hkind hposition hcharacter

/-! ### Positions and characters in descriptions -/

def describedPosition : Option Int → String
  | none => "None"
  | some p => toString p

def describedCharacter : Option String → String
  | none => "None"
  | some c => Text.quote c

theorem describe_eq (f : Fault) :
    f.describe = "ParseError(" ++ f.kind.name ++ ", position=" ++ describedPosition f.position ++
      ", character=" ++ describedCharacter f.character ++ ")" := rfl

theorem describedPosition_injective : Function.Injective describedPosition := by
  rw [Option.injective_iff]
  constructor
  · intro p q h
    exact Text.toString_int_injective h
  · rintro ⟨p, h⟩
    have hletter : 'N' ∈ (toString p).toList := by
      rw [show toString p = "None" from h]
      decide
    exact absurd (Text.mem_toString_int hletter) (by decide)

theorem comma_not_mem_describedPosition (p : Option Int) :
    ',' ∉ (describedPosition p).toList := by
  intro h
  cases p with
  | none => exact absurd h (by decide)
  | some p => exact absurd (Text.mem_toString_int h) (by decide)

/-- What holds no comma ends before the first. -/
theorem append_comma_inj {a b x y : List Char} (ha : ',' ∉ a) (hb : ',' ∉ b)
    (h : a ++ ',' :: x = b ++ ',' :: y) : a = b ∧ x = y := by
  induction a generalizing b with
  | nil =>
    cases b with
    | nil => exact ⟨rfl, (List.cons.inj h).2⟩
    | cons d b => exact absurd ((List.cons.inj h).1 ▸ List.mem_cons_self) hb
  | cons c a ih =>
    cases b with
    | nil => exact absurd ((List.cons.inj h).1 ▸ List.mem_cons_self) ha
    | cons d b =>
      obtain ⟨rfl, hrest⟩ := List.cons.inj h
      obtain ⟨rfl, hxy⟩ := ih (fun hm => ha (List.mem_cons_of_mem c hm))
        (fun hm => hb (List.mem_cons_of_mem c hm)) hrest
      exact ⟨rfl, hxy⟩

theorem describedCharacter_append_inj {c d : Option String} {x y : List Char}
    (h : (describedCharacter c).toList ++ x = (describedCharacter d).toList ++ y) :
    c = d ∧ x = y := by
  have hletter (c : String) (x y : List Char) :
      "None".toList ++ x ≠ (Text.quote c).toList ++ y := fun h =>
    absurd (mem_of_eq_quote_append h) (by decide)
  cases c with
  | none =>
    cases d with
    | none => exact ⟨rfl, List.append_cancel_left h⟩
    | some d => exact absurd h (hletter d x y)
  | some c =>
    cases d with
    | none => exact absurd h.symm (hletter c y x)
    | some d =>
      obtain ⟨rfl, hxy⟩ := quote_append_inj h
      exact ⟨rfl, hxy⟩

theorem describe_injective : Function.Injective describe := by
  intro f g h
  rw [describe_eq, describe_eq] at h
  have hlist := congrArg String.toList h
  simp only [String.toList_append, List.append_assoc] at hlist
  obtain ⟨hkind, hrest⟩ := prefixFree_name.append_inj (List.append_cancel_left hlist)
  obtain ⟨hposition, hrest⟩ := append_comma_inj (comma_not_mem_describedPosition _)
    (comma_not_mem_describedPosition _) (List.append_cancel_left hrest)
  obtain ⟨hcharacter, -⟩ := describedCharacter_append_inj (List.append_cancel_left hrest)
  exact eq_of_parts hkind (describedPosition_injective (String.toList_injective hposition))
    hcharacter

/-- **The texts of faults are unambiguous**: no two faults have the same message, and none the same
description. -/
theorem texts_injective : Function.Injective message ∧ Function.Injective describe :=
  ⟨message_injective, describe_injective⟩

/-- A character that reads like the end of the message, in either pair of quotes. -/
theorem texts_with_quoted_position :
    message { kind := .overflow, character := some "\x27 at position 5" } ≠
        message { kind := .overflow, position := some 5, character := some "" } ∧
      describe { kind := .overflow, position := some (-5) } ≠
        describe { kind := .overflow, character := some "-5" } := by
  constructor
  · intro h
    cases texts_injective.1 h
  · intro h
    cases texts_injective.2 h

/-! ### Printing -/

theorem printable_kind : ∀ k ∈ Kind.all, Text.Printable k.text ∧ Text.Printable k.name := by
  decide +kernel

theorem printable_toString_int (n : Int) : Text.Printable (toString n) := by
  intro c hc
  rcases Text.mem_toString_int hc with hsign | hdigit
  · exact List.all_eq_true.1 (by decide : ['+', '-'].all Text.isPrintable = true) c hsign
  · have hrange : 0x30 ≤ c.toNat ∧ c.toNat ≤ 0x39 := by
      simpa [Char.isDigit, UInt32.le_iff_toNat_le] using hdigit
    exact Text.Quoted.isPrintable_of_ascii (by omega)

theorem printable_message (f : Fault) : Text.Printable f.message := by
  have hcharacter : Text.Printable (characterText f.character) := by
    cases f.character with
    | none => decide
    | some c => exact .append (by decide) (Text.printable_quote c)
  have hposition : Text.Printable (positionText f.position) := by
    cases f.position with
    | none => decide
    | some p => exact .append (by decide) (printable_toString_int p)
  exact ((printable_kind f.kind f.kind.mem_all).1.append hcharacter).append hposition

end BaseThree.Fault
