import BaseThree.CommandLine
import BaseThree.Proofs.Decimal

/-! Options in any order.

An `OptionGroup` is an option with what belongs to it: a wish for more output, or a width. Groups
are recognised one by one, whatever comes after them (`ofTexts_words`), and taken one by one, each
with its own effect on what has been read so far (`take_groups`). A width that is too long to be
read ends the reading; if there is none, the last width counts, and a wish for the log wherever it
stands (`foldlM_heed`). So a command line of groups and of at most one expression, in whatever
order, asks for the same (`ofTexts_interleaved`); and an expression behind a separator may be any
text at all (`ofTexts_separated`). -/
namespace BaseThree.CommandLine

/-- An option and what belongs to it. -/
inductive OptionGroup
  | verbose (long : Bool)
  /-- The width follows an equals sign, or is an argument of its own. -/
  | maxBits (joined : Bool) (width : Text.Decimal)

namespace OptionGroup

/-- The group as it is written. -/
def words : OptionGroup → List String
  | verbose false => ["-v"]
  | verbose true => ["--verbose"]
  | maxBits false width => ["--max-bits", width.text]
  | maxBits true width => ["--max-bits=" ++ width.text]

/-- What its words are recognised as. -/
def arguments : OptionGroup → List Argument
  | verbose long => [.flag .verbose (!long) none]
  | maxBits false width => [.flag .maxBits false none, .plain width.text]
  | maxBits true width => [.flag .maxBits false (some width.chars)]

def isVerbose : OptionGroup → Bool
  | verbose _ => true
  | maxBits _ _ => false

def width? : OptionGroup → Option Text.Decimal
  | verbose _ => none
  | maxBits _ width => some width

end OptionGroup

/-- All groups as they are written, one after the other. -/
def words (groups : List OptionGroup) : List String := groups.flatMap OptionGroup.words

/-- All widths, in the order in which they are written. -/
def widths (groups : List OptionGroup) : List Text.Decimal :=
  groups.filterMap OptionGroup.width?

/-- The first width that has too many digits to be read. -/
def longWidth? (groups : List OptionGroup) : Option Text.Decimal :=
  (widths groups).find? Text.Decimal.isLong

/-- The width that counts, if all of them can be read. -/
def lastWidth (groups : List OptionGroup) : Option Int :=
  (widths groups).getLast?.map Text.Decimal.value

/-- Whether the log is wanted. -/
def wantsLog (groups : List OptionGroup) : Bool := groups.any OptionGroup.isVerbose

/-! ### Single arguments -/

namespace Argument

theorem splitEquals_append {name : List Char} (h : '=' ∉ name) (value : List Char) :
    splitEquals (name ++ '=' :: value) = some (name, value) := by
  induction name with
  | nil => rfl
  | cons c rest ih =>
    rw [List.mem_cons, not_or] at h
    rw [List.cons_append, splitEquals, if_neg (Ne.symm h.1), ih h.2]
    rfl

theorem splitEquals_of_not_mem {text : List Char} (h : '=' ∉ text) : splitEquals text = none := by
  induction text with
  | nil => rfl
  | cons c rest ih =>
    rw [List.mem_cons, not_or] at h
    rw [splitEquals, if_neg (Ne.symm h.1), ih h.2]
    rfl

/-- What no spelling is like is spelled nowhere. -/
theorem spelled?_eq_none {p : List Char → Bool} {text : String} (htext : p text.toList = true)
    (h : (Flag.spellings.all fun s => !p s.1.toList) = true) : Flag.spelled? text = none := by
  refine List.lookup_eq_none_iff.2 fun s hs => ?_
  have hnot := List.all_eq_true.1 h s hs
  rw [bne_iff_ne]
  rintro rfl
  rw [htext] at hnot
  cases hnot

/-- An argument that does not begin with a hyphen is plain. -/
theorem ofText_plain {text : String} (h : text.toList.head? ≠ some '-') :
    ofText text = .ok (.plain text) := by
  unfold ofText
  split
  · rename_i hc
    rw [hc] at h
    exact absurd rfl h
  · rfl

theorem ofText_hyphened {text : String} {c : Char} {rest : List Char}
    (h : text.toList = '-' :: c :: rest) : ofText text = ofHyphened text := by
  unfold ofText
  rw [h]
  rfl

/-- A value after an equals sign is attached, whatever it is. -/
theorem ofText_joined (value : List Char) :
    ofText ("--max-bits=" ++ String.ofList value) = .ok (.flag .maxBits false (some value)) := by
  have htext : ("--max-bits=" ++ String.ofList value).toList =
      "--max-bits".toList ++ '=' :: value := by
    simp only [String.toList_append, String.toList_ofList]
    rfl
  have hspelled : Flag.spelled? ("--max-bits=" ++ String.ofList value) = none := by
    refine spelled?_eq_none (p := fun text => text.contains '=') ?_ (by rfl)
    rw [htext]
    simp
  have hname : '=' ∉ "--max-bits".toList := by decide
  have hsplit := splitEquals_append hname value
  have hvalued : valued? ("--max-bits".toList ++ '=' :: value) =
      some (.flag .maxBits false (some value)) := by
    unfold valued?
    rw [hsplit]
    rfl
  rw [ofText_hyphened htext]
  unfold ofHyphened
  rw [hspelled, htext, hvalued]

/-- Nothing is spelled with a digit after the first character. -/
theorem spelled?_of_digit {text : String} {first c : Char} {rest : List Char}
    (h : text.toList = first :: c :: rest) (hc : c.isDigit = true) : Flag.spelled? text = none := by
  refine spelled?_eq_none (p := fun text => text[1]?.any Char.isDigit) ?_ (by rfl)
  rw [h]
  exact hc

theorem isNegativeNumber_digits {digits : List Char} (hne : digits ≠ [])
    (h : ∀ c ∈ digits, c.isDigit = true) : isNegativeNumber ('-' :: digits) = true := by
  have hdigits : isDigits digits = true := by
    unfold isDigits
    rw [Bool.and_eq_true, List.all_eq_true]
    refine ⟨by simpa using hne, fun c hc => ?_⟩
    rw [Text.isDecimalDigit, Text.decimalDigit?_of_isDigit (h c hc)]
    rfl
  have hunsigned : isUnsigned digits = true := by
    unfold isUnsigned
    rw [hdigits, Bool.true_or]
  show (isUnsigned digits || _) = true
  rw [hunsigned, Bool.true_or]

/-- A hyphen before digits is a sign. -/
theorem ofText_negative {text : String} {digits : List Char} (htext : text.toList = '-' :: digits)
    (hne : digits ≠ []) (h : ∀ c ∈ digits, c.isDigit = true) :
    ofText text = .ok (.plain text) := by
  obtain ⟨c, rest, rfl⟩ := List.exists_cons_of_ne_nil hne
  have hc := h c (List.mem_cons_self ..)
  have hequals : '=' ∉ '-' :: c :: rest := by
    rw [List.mem_cons, not_or]
    exact ⟨by decide, fun hm => absurd (h '=' hm) (by decide)⟩
  have hvalued : valued? ('-' :: c :: rest) = none := by
    unfold valued?
    rw [splitEquals_of_not_mem hequals]
    rfl
  have hcandidates : candidates ('-' :: c :: rest) = [] := by
    have hspelled : Flag.spelled? (String.ofList ['-', c]) = none :=
      spelled?_of_digit String.toList_ofList hc
    have hhyphen : c ≠ '-' := Text.ne_of_isDigit hc (by decide)
    rw [candidates, lettered, hspelled]
    exact hhyphen
  rw [ofText_hyphened htext]
  unfold ofHyphened
  rw [spelled?_of_digit htext hc, htext, hvalued, hcandidates, isNegativeNumber_digits hne h]
  rfl

/-- A decimal is plain, with a sign or without. -/
theorem ofText_decimal (d : Text.Decimal) : ofText d.text = .ok (.plain d.text) := by
  have htext : d.text.toList = d.sign.chars ++ d.digits := String.toList_ofList
  cases hsign : d.sign with
  | minus =>
    rw [hsign] at htext
    exact ofText_negative htext d.digits_ne_nil d.isDigit_of_mem
  | plus =>
    rw [hsign] at htext
    refine ofText_plain ?_
    rw [htext]
    show some '+' ≠ some '-'
    decide
  | absent =>
    rw [hsign] at htext
    refine ofText_plain fun hhead => ?_
    rw [htext] at hhead
    exact absurd (d.isDigit_of_mem '-' (List.mem_of_head? hhead)) (by decide)

end Argument

/-! ### Groups among arguments -/

theorem ofTexts_cons {text : String} {a : Argument} (hne : text ≠ "--")
    (ha : Argument.ofText text = .ok a) (rest : List String) :
    Argument.ofTexts (text :: rest) = (Argument.ofTexts rest).map (a :: ·) := by
  rw [Argument.ofTexts, if_neg hne, ha]
  rfl

theorem ofTexts_separator (rest : List String) :
    Argument.ofTexts ("--" :: rest) = .ok (.separator :: rest.map .plain) := by
  rw [Argument.ofTexts, if_pos rfl]
  rfl

/-- A text with a digit is no separator. -/
theorem text_ne_separator (d : Text.Decimal) : d.text ≠ "--" := by
  intro he
  have hchars : d.sign.chars ++ d.digits = ['-', '-'] := by
    have hlist := congrArg String.toList he
    rwa [Text.Decimal.text, String.toList_ofList] at hlist
  obtain ⟨c, hc⟩ := List.exists_mem_of_ne_nil _ d.digits_ne_nil
  have hmem : c ∈ ['-', '-'] := hchars ▸ List.mem_append_right _ hc
  have hdigit := d.isDigit_of_mem c hc
  simp only [List.mem_cons, List.not_mem_nil, or_false, or_self] at hmem
  rw [hmem] at hdigit
  exact absurd hdigit (by decide)

/-- A group is recognised, whatever follows it. -/
theorem ofTexts_group (g : OptionGroup) (rest : List String) :
    Argument.ofTexts (g.words ++ rest) = (Argument.ofTexts rest).map (g.arguments ++ ·) := by
  cases g with
  | verbose long =>
    cases long with
    | false => exact ofTexts_cons (by decide) rfl rest
    | true => exact ofTexts_cons (by decide) rfl rest
  | maxBits joined width =>
    cases joined with
    | false =>
      have hwidth := ofTexts_cons (text_ne_separator width) (Argument.ofText_decimal width) rest
      have hflag : Argument.ofTexts ("--max-bits" :: width.text :: rest) =
          (Argument.ofTexts (width.text :: rest)).map (.flag .maxBits false none :: ·) :=
        ofTexts_cons (by decide) rfl (width.text :: rest)
      rw [hwidth] at hflag
      refine hflag.trans ?_
      cases Argument.ofTexts rest <;> rfl
    | true =>
      refine ofTexts_cons ?_ (Argument.ofText_joined width.chars) rest
      intro he
      have hlist := congrArg String.toList he
      rw [String.toList_append] at hlist
      cases hlist

theorem ofTexts_words (groups : List OptionGroup) (rest : List String) :
    Argument.ofTexts (words groups ++ rest) =
      (Argument.ofTexts rest).map (groups.flatMap OptionGroup.arguments ++ ·) := by
  induction groups with
  | nil =>
    show Argument.ofTexts rest = _
    cases Argument.ofTexts rest <;> rfl
  | cons g groups ih =>
    have hwords : words (g :: groups) ++ rest = g.words ++ (words groups ++ rest) :=
      List.append_assoc ..
    rw [hwords, ofTexts_group, ih, List.flatMap_cons]
    cases Argument.ofTexts rest with
    | error e => rfl
    | ok arguments => exact congrArg Except.ok (List.append_assoc ..).symm

/-! ### What groups do -/

namespace Intake

/-- What has been read once a group has been, too. -/
def heed (s : Intake) : OptionGroup → Except Halt Intake
  | .verbose _ => .ok {s with verbose := true}
  | .maxBits _ width => s.obeyWith .maxBits width.text

/-- What groups come to after all that has been read. -/
def heedAll (s : Intake) (groups : List OptionGroup) : Except Halt Intake :=
  match longWidth? groups with
  | some d => .error (.usage (.invalidInteger .maxBits d.text))
  | none =>
    .ok {s with maxBits := ((lastWidth groups).map .bits).or s.maxBits
                verbose := s.verbose || wantsLog groups}

theorem read?_decimal (d : Text.Decimal) :
    Width.read? d.text = if d.isLong then none else some (.bits d.value) := by
  rw [Width.read?, if_neg (text_ne_separator d), d.readInteger?_text]
  cases d.isLong <;> rfl

/-- A group is taken, whatever follows it. -/
theorem take_group (s : Intake) (g : OptionGroup) (rest : List Argument) :
    s.take (g.arguments ++ rest) = s.heed g >>= fun t => t.take rest := by
  cases g with
  | verbose long =>
    cases rest with
    | nil => rfl
    | cons a rest => cases a <;> rfl
  | maxBits joined width => cases joined <;> rfl

theorem take_groups (s : Intake) (groups : List OptionGroup) (rest : List Argument) :
    s.take (groups.flatMap OptionGroup.arguments ++ rest) =
      groups.foldlM heed s >>= fun t => t.take rest := by
  induction groups generalizing s with
  | nil => rfl
  | cons g groups ih =>
    rw [List.flatMap_cons, List.append_assoc, take_group, List.foldlM_cons, bind_assoc]
    exact congrArg _ (funext fun t => ih t)

/-! ### Several groups -/

section
variable (groups : List OptionGroup) (joined : Bool) (d : Text.Decimal)

theorem longWidth?_maxBits : longWidth? (.maxBits joined d :: groups) =
    if d.isLong then some d else longWidth? groups := by
  have hwidths : widths (.maxBits joined d :: groups) = d :: widths groups := rfl
  unfold longWidth?
  rw [hwidths, List.find?_cons]
  cases d.isLong <;> rfl

theorem lastWidth_maxBits : lastWidth (.maxBits joined d :: groups) =
    (lastWidth groups).or (some d.value) := by
  have hwidths : widths (.maxBits joined d :: groups) = d :: widths groups := rfl
  unfold lastWidth
  rw [hwidths, List.getLast?_cons]
  cases (widths groups).getLast? <;> rfl

end

theorem obeyWith_decimal (s : Intake) (d : Text.Decimal) :
    s.obeyWith .maxBits d.text =
      if d.isLong then .error (.usage (.invalidInteger .maxBits d.text))
      else .ok {s with maxBits := some (.bits d.value)} := by
  unfold obeyWith
  rw [read?_decimal]
  cases d.isLong <;> rfl

theorem heedAll_nil (s : Intake) : s.heedAll [] = .ok s := by
  show Except.ok {s with verbose := s.verbose || false} = .ok s
  rw [Bool.or_false]

/-- **Of several widths the last one counts, of several wishes for the log any**; but a width that
is too long is one too many. -/
theorem foldlM_heed (s : Intake) (groups : List OptionGroup) :
    groups.foldlM heed s = s.heedAll groups := by
  induction groups generalizing s with
  | nil => exact (heedAll_nil s).symm
  | cons g groups ih =>
    cases g with
    | verbose long =>
      have hlong : longWidth? (.verbose long :: groups) = longWidth? groups := rfl
      have hlast : lastWidth (.verbose long :: groups) = lastWidth groups := rfl
      have hlog : wantsLog (.verbose long :: groups) = true := rfl
      show List.foldlM heed {s with verbose := true} groups = _
      rw [ih]
      unfold heedAll
      rw [hlong, hlast, hlog, Bool.true_or, Bool.or_true]
    | maxBits joined d =>
      have hlog : wantsLog (.maxBits joined d :: groups) = wantsLog groups := rfl
      show (s.obeyWith .maxBits d.text >>= fun t => List.foldlM heed t groups) = _
      rw [obeyWith_decimal]
      unfold heedAll
      rw [longWidth?_maxBits, lastWidth_maxBits, hlog]
      cases d.isLong with
      | true => rfl
      | false =>
        show List.foldlM heed {s with maxBits := some (.bits d.value)} groups = _
        rw [ih]
        unfold heedAll
        cases longWidth? groups with
        | some _ => rfl
        | none => cases lastWidth groups <;> rfl

/-- Groups leave the expression as it is. -/
theorem heedAll_expression (s : Intake) (groups : List OptionGroup) (expression : Option String) :
    heedAll {s with expression := expression} groups =
      (s.heedAll groups).map fun t => {t with expression := expression} := by
  unfold heedAll
  cases longWidth? groups <;> rfl

theorem expression_of_heedAll {s t : Intake} {groups : List OptionGroup}
    (h : s.heedAll groups = .ok t) : t.expression = s.expression := by
  unfold heedAll at h
  cases hlong : longWidth? groups with
  | some d =>
    rw [hlong] at h
    cases h
  | none =>
    rw [hlong] at h
    cases h
    rfl

theorem heedAll_append (s : Intake) (groups more : List OptionGroup) :
    s.heedAll (groups ++ more) = s.heedAll groups >>= fun t => t.heedAll more := by
  rw [← foldlM_heed, ← foldlM_heed, List.foldlM_append]
  exact congrArg _ (funext fun t => foldlM_heed t more)

theorem take_all (s : Intake) (groups : List OptionGroup) :
    s.take (groups.flatMap OptionGroup.arguments) = s.heedAll groups := by
  have htake := take_groups s groups []
  rw [List.append_nil, foldlM_heed] at htake
  rw [htake]
  exact bind_pure _

/-- The first plain argument is the expression. -/
theorem take_expression {s : Intake} (hs : s.expression = none) (text : String)
    (groups : List OptionGroup) :
    s.take (.plain text :: groups.flatMap OptionGroup.arguments) =
      take {s with expression := some text} (groups.flatMap OptionGroup.arguments) := by
  obtain ⟨expression, maxBits, verbose, surplus⟩ := s
  cases hs
  cases groups with
  | nil => rfl
  | cons g groups =>
    cases g with
    | verbose long => rfl
    | maxBits joined width => cases joined <;> rfl

/-- So is one behind a separator, which is dropped. -/
theorem take_separated {s : Intake} (hs : s.expression = none) (text : String) :
    s.take [.separator, .plain text] = .ok {s with expression := some text} := by
  obtain ⟨expression, maxBits, verbose, surplus⟩ := s
  cases hs
  rfl

/-- Groups, and then what gives the expression. -/
theorem take_groups_then {rest : List Argument} {text : String} {more : List OptionGroup}
    (hrest : ∀ s : Intake, s.expression = none →
      s.take rest = heedAll {s with expression := some text} more) (groups : List OptionGroup) :
    take {} (groups.flatMap OptionGroup.arguments ++ rest) =
      heedAll {expression := some text} (groups ++ more) := by
  have hexpression := heedAll_expression {} groups (some text)
  rw [take_groups, foldlM_heed, heedAll_append, hexpression]
  cases hgroups : heedAll {} groups with
  | error halt => rfl
  | ok t => exact hrest t (expression_of_heedAll hgroups)

theorem take_interleaved (before after : List OptionGroup) (expression : Option String) :
    take {} (before.flatMap OptionGroup.arguments ++
        (expression.toList.map .plain ++ after.flatMap OptionGroup.arguments)) =
      heedAll {expression := expression} (before ++ after) := by
  cases expression with
  | none =>
    show take {} (before.flatMap OptionGroup.arguments ++ after.flatMap OptionGroup.arguments) = _
    rw [take_groups, foldlM_heed, heedAll_append]
    exact congrArg _ (funext fun t => take_all t after)
  | some text =>
    exact take_groups_then (fun s hs => (take_expression hs text after).trans (take_all _ after))
      before

end Intake

/-! ### Requests -/

namespace Request

/-- What groups and an expression, or none, ask for. -/
def asked (groups : List OptionGroup) (expression : Option String) : Except Halt Request :=
  Intake.heedAll {expression := expression} groups >>= ofIntake

theorem ofTexts_of_read {texts : List String} {arguments : List Argument}
    (ha : Argument.ofTexts texts = .ok arguments) :
    ofTexts texts = Intake.take {} arguments >>= ofIntake := by
  unfold ofTexts
  rw [ha]

theorem ofTexts_of_take {texts : List String} {arguments : List Argument} {s : Intake}
    (ha : Argument.ofTexts texts = .ok arguments) (hs : Intake.take {} arguments = .ok s) :
    ofTexts texts = ofIntake s := by
  rw [ofTexts_of_read ha, hs]
  rfl

/-- **Groups in any order, with one expression among them or none, ask for the same.** -/
theorem ofTexts_interleaved (before after : List OptionGroup) {expression : Option String}
    (h : ∀ text, expression = some text → text.toList.head? ≠ some '-') :
    ofTexts (words before ++ expression.toList ++ words after) =
      asked (before ++ after) expression := by
  have hafter : Argument.ofTexts (words after) = .ok (after.flatMap OptionGroup.arguments) := by
    have hwords := ofTexts_words after []
    rw [List.append_nil] at hwords
    rw [hwords]
    exact congrArg Except.ok (List.append_nil _)
  have hrest : Argument.ofTexts (expression.toList ++ words after) =
      .ok (expression.toList.map .plain ++ after.flatMap OptionGroup.arguments) := by
    cases expression with
    | none => exact hafter
    | some text =>
      have hhead := h text rfl
      have hne : text ≠ "--" := by
        rintro rfl
        exact hhead rfl
      refine (ofTexts_cons hne (Argument.ofText_plain hhead) (words after)).trans ?_
      rw [hafter]
      rfl
  have harguments : Argument.ofTexts (words before ++ expression.toList ++ words after) =
      .ok (before.flatMap OptionGroup.arguments ++
        (expression.toList.map .plain ++ after.flatMap OptionGroup.arguments)) := by
    rw [List.append_assoc, ofTexts_words, hrest]
    rfl
  rw [ofTexts_of_read harguments, Intake.take_interleaved]
  rfl

theorem ofTexts_options (groups : List OptionGroup) :
    ofTexts (words groups) = asked groups none := by
  have hwords : words groups ++ Option.toList none ++ words [] = words groups := by
    rw [Option.toList_none, List.append_nil]
    exact List.append_nil _
  have hplain : ∀ text : String, none = some text → text.toList.head? ≠ some '-' := nofun
  have hrequest := ofTexts_interleaved groups [] hplain
  rwa [hwords, List.append_nil] at hrequest

theorem ofTexts_options_concat (groups : List OptionGroup) {text : String}
    (h : text.toList.head? ≠ some '-') :
    ofTexts (words groups ++ [text]) = asked groups (some text) := by
  have hplain : ∀ other, some text = some other → other.toList.head? ≠ some '-' := by
    rintro other ⟨⟩
    exact h
  have hwords : words groups ++ (some text).toList ++ words [] = words groups ++ [text] :=
    List.append_nil _
  have hrequest := ofTexts_interleaved groups [] hplain
  rwa [hwords, List.append_nil] at hrequest

/-- **Behind a separator any text is the expression.** -/
theorem ofTexts_separated (groups : List OptionGroup) (text : String) :
    ofTexts (words groups ++ ["--", text]) = asked groups (some text) := by
  have harguments : Argument.ofTexts (words groups ++ ["--", text]) =
      .ok (groups.flatMap OptionGroup.arguments ++ [.separator, .plain text]) := by
    rw [ofTexts_words, ofTexts_separator]
    rfl
  have htake : Intake.take {} (groups.flatMap OptionGroup.arguments ++ [.separator, .plain text]) =
      Intake.heedAll {expression := some text} (groups ++ []) :=
    Intake.take_groups_then
      (fun s hs => (Intake.take_separated hs text).trans (Intake.heedAll_nil _).symm) groups
  rw [List.append_nil] at htake
  rw [ofTexts_of_read harguments, htake]
  rfl

end Request

end BaseThree.CommandLine
