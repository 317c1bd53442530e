import BaseThree.Proofs.Evaluation.Depth
import BaseThree.Proofs.Expression.Arithmetic

/-! The rule for numerals, from any state.

The rule reads the digits that come next and nothing else, checking the value of those read so far
after each (`HasRead`). A value only grows with more digits, so what a check says of some of them it
says of all (`Exceeds.append`): the rule overflows if the whole numeral is too large, and not
otherwise, whatever stands behind it. `number_reads_leading_digits`: there are three ways in which
it ends, and the digits with the character after them decide between these. -/
namespace BaseThree

/-! ### Digits in front -/

theorem isSome_ofChar? {c : Char} :
    (Digit.ofChar? c).isSome = decide (c ∈ ['0', '1', '2']) := by
  rw [Bool.eq_iff_iff, Option.isSome_iff_exists, decide_eq_true_iff, Digit.ofChar?_eq_some_iff]

theorem map_leadingDigits (text : List Char) :
    (leadingDigits text).map Digit.toChar = text.takeWhile (· ∈ ['0', '1', '2']) := by
  unfold leadingDigits
  simp only [isSome_ofChar?]
  induction text with
  | nil => rfl
  | cons c rest ih =>
    by_cases hc : c ∈ ['0', '1', '2']
    · obtain ⟨d, hd⟩ := Digit.ofChar?_eq_some_iff.2 hc
      rw [List.takeWhile_cons_of_pos (by exact decide_eq_true hc), List.filterMap_cons_some hd,
        List.map_cons, ih, Digit.toChar_of_ofChar? hd]
    · rw [List.takeWhile_cons_of_neg (by rwa [decide_eq_true_iff])]
      rfl

/-- A text is the digits in front and a rest that begins with none. -/
theorem leadingDigits_split (text : List Char) :
    ∃ rest, text = (leadingDigits text).map Digit.toChar ++ rest ∧
      ∀ c, rest.head? = some c → Digit.ofChar? c = none := by
  refine ⟨text.dropWhile (· ∈ ['0', '1', '2']), ?_, fun c hc => ?_⟩
  · rw [map_leadingDigits, List.takeWhile_append_dropWhile]
  · have hnot := List.head?_dropWhile_not (· ∈ ['0', '1', '2']) text
    rw [hc] at hnot
    rw [← Option.not_isSome_iff_eq_none, isSome_ofChar?]
    simpa using hnot

theorem leadingDigits_zeros (zeros : Nat) (text : List Char) :
    leadingDigits (List.replicate zeros '0' ++ text) =
      List.replicate zeros 0 ++ leadingDigits text := by
  have hzeros : List.replicate zeros '0' = (List.replicate zeros (0 : Digit)).map Digit.toChar := by
    rw [List.map_replicate]
    rfl
  rw [hzeros, leadingDigits_append]

namespace Evaluation

/-! ### Values above the range -/

/-- The digits have a value above the range. -/
def Exceeds (settings : Settings) (digits : List Digit) : Prop :=
  settings.overflow = .error ∧ settings.maxValue < Numeral.ofDigits digits

section
variable {settings : Settings} {digits : List Digit}

theorem inRange_ofDigits_iff :
    settings.inRange (Numeral.ofDigits digits) = true ↔ ¬Exceeds settings digits := by
  have hmin := settings.minValue_le_zero
  rw [Settings.inRange_iff, Exceeds, not_and]
  exact forall_congr' fun _ => by omega

theorem not_exceeds_nil : ¬Exceeds settings [] := inRange_ofDigits_iff.1 settings.inRange_zero

theorem Exceeds.append (h : Exceeds settings digits) (more : List Digit) :
    Exceeds settings (digits ++ more) := by
  have hle := Numeral.ofDigits_le_append digits more
  have hlt := h.2
  exact ⟨h.1, by omega⟩

theorem Exceeds.of_take {n : Nat} (h : Exceeds settings (digits.take n)) :
    Exceeds settings digits := by
  have hall := h.append (digits.drop n)
  rwa [List.take_append_drop] at hall

/-- The first digit at which a value is too large. -/
theorem isLeast_exceeds {done more : List Digit} {d : Digit} (hfits : ¬Exceeds settings done)
    (h : Exceeds settings (done ++ [d])) :
    IsLeast {n | Exceeds settings ((done ++ d :: more).take n)} (done.length + 1) := by
  constructor
  · show Exceeds settings ((done ++ d :: more).take (done.length + 1))
    rwa [List.take_length_add_append]
  · intro n hn
    by_contra hlt
    have htake : (done ++ d :: more).take n = done.take n :=
      List.take_append_of_le_length (by omega)
    have hexceeds : Exceeds settings ((done ++ d :: more).take n) := hn
    rw [htake] at hexceeds
    exact hfits hexceeds.of_take

theorem exceeds_zeros_iff (zeros : Nat) :
    Exceeds settings (List.replicate zeros 0 ++ digits) ↔ Exceeds settings digits := by
  rw [Exceeds, Exceeds, Numeral.ofDigits_zeros]

end

/-! ### Digits read -/

/-- `n` characters have been read since the state `s`, and no group was opened or closed. -/
structure Took (n : Nat) (s t : State) : Prop where
  text : t.scanner.text = s.scanner.text
  position : t.scanner.position = s.scanner.position + n
  depth : t.depth = s.depth

/-- The ways in which the rule for numerals ends that begins in the state `s`, before `digits`. -/
inductive NumberEnds (settings : Settings) (s : State) (digits : List Digit) :
    Except Failure Int → State → Prop
  /-- The digits up to one are too large, and nothing after that one is looked at. -/
  | overflow {n : Nat} {t : State} (large : Exceeds settings digits)
    (first : IsLeast {n | Exceeds settings (digits.take n)} n) (took : Took n s t) :
    NumberEnds settings s digits
      (.error (.fault { kind := .overflow, position := some s.scanner.position })) t
  /-- All digits have been read, and one that belongs to no numeral follows. -/
  | foreign {c : Char} {t : State} (fits : ¬Exceeds settings digits)
    (next : s.scanner.text[s.scanner.position + digits.length]? = some c)
    (is_foreign : isForeignDigit c = true) (took : Took digits.length s t) :
    NumberEnds settings s digits
      (.error (.fault
        { kind := .invalidDigit
          position := some ((s.scanner.position + digits.length : Nat) : Int)
          character := some (String.singleton c) })) t
  | value {t : State} (fits : ¬Exceeds settings digits)
    (next : ∀ c, s.scanner.text[s.scanner.position + digits.length]? = some c →
      isForeignDigit c = false) (took : Took digits.length s t) :
    NumberEnds settings s digits (.ok (Numeral.ofDigits digits)) t

/-- Since the state `s` the digits `done` have been read, and `more` with `rest` are left. -/
structure HasRead (settings : Settings) (s : State) (done more : List Digit) (rest : List Char)
    (v : Int) (t : State) : Prop extends Took done.length s t where
  unread : t.scanner.unread = more.map Digit.toChar ++ rest
  value : v = Numeral.ofDigits done
  fits : ¬Exceeds settings done

section
variable {settings : Settings} {s t : State} {done more digits : List Digit} {rest : List Char}
  {v : Int} {d : Digit}

theorem took_advance (h : Took done.length s t) {c : Char} {unread : List Char}
    (hu : t.scanner.unread = c :: unread) {trace : Option (List Int)} {log : List Line} :
    Took (done ++ [d]).length s
      {t with scanner := ⟨c :: t.scanner.passed, unread⟩, trace := trace, log := log} := by
  refine ⟨?_, ?_, h.depth⟩
  · simpa [Scanner.text, hu] using h.text
  · have hposition := h.position
    simp only [Scanner.position, List.length_cons, List.length_append,
      List.length_nil] at hposition ⊢
    omega

/-- A turn reads the next digit, and its check is that of the digits with it. -/
theorem ends_numeralTurn_digit (h : HasRead settings s done (d :: more) rest v t) :
    Ends (numeralTurn settings s.scanner v) t
      (Turned (HasRead settings s (done ++ [d]) more rest) (fun _ _ => False) t)
      (fun f u => f = faultAt .overflow s.scanner none ∧ Exceeds settings (done ++ [d]) ∧
        Took (done ++ [d]).length s u) := by
  have hu : t.scanner.unread = d.toChar :: (more.map Digit.toChar ++ rest) := h.unread
  have hnext : (Numeral.base : Int) * v + d.val = Numeral.ofDigits (done ++ [d]) := by
    rw [h.value, Numeral.ofDigits_concat]
    push_cast
    rfl
  have hpeek : t.scanner.peek?.bind Digit.ofChar? = some d := by
    rw [Scanner.peek?, hu, List.head?_cons, Option.bind_some, Digit.ofChar?_toChar]
  unfold numeralTurn
  simp only [ends_bind, ends_peek, hpeek, ends_advance hu, ends_checked, hnext]
  split
  · rename_i hr
    refine ⟨⟨took_advance h.toTook hu, rfl, rfl, inRange_ofDigits_iff.1 hr⟩, ?_⟩
    rw [hu]
    exact Nat.lt_succ_self _
  · rename_i hr
    exact ⟨trivial, Classical.not_not.1 (mt inRange_ofDigits_iff.2 hr), took_advance h.toTook hu⟩

/-- After the last digit a turn changes nothing. -/
theorem ends_numeralTurn_last (hrest : ∀ c, rest.head? = some c → Digit.ofChar? c = none)
    (h : HasRead settings s done [] rest v t) :
    Ends (numeralTurn settings s.scanner v) t
      (Turned (fun _ _ => False) (fun w u => w = v ∧ u = t) t) (fun _ _ => False) := by
  have hpeek : t.scanner.peek?.bind Digit.ofChar? = none := by
    rw [Scanner.peek?, h.unread]
    exact Option.bind_eq_none_iff.2 hrest
  unfold numeralTurn
  rw [ends_bind, ends_peek, hpeek]
  show v = v ∧ t = t
  exact ⟨rfl, rfl⟩

/-- The loop reads all the digits, or those up to the first that is too many. -/
theorem ends_numeralLoop (hu : s.scanner.unread = digits.map Digit.toChar ++ rest)
    (hrest : ∀ c, rest.head? = some c → Digit.ofChar? c = none) :
    Ends (loop (numeralTurn settings s.scanner) s.scanner.unread 0) s
      (HasRead settings s digits [] rest)
      (fun f t => f = faultAt .overflow s.scanner none ∧ Exceeds settings digits ∧
        ∃ n, IsLeast {n | Exceeds settings (digits.take n)} n ∧ Took n s t) := by
  -- Of the digits, some have been read and fit, and the others are next.
  refine ends_loop (fun v t => ∃ done more, digits = done ++ more ∧
    HasRead settings s done more rest v t) (fun v t hread => ?_) _ 0 s ?_ (Nat.le_refl _)
  · obtain ⟨done, more, rfl, hread⟩ := hread
    cases more with
    | nil =>
      refine (ends_numeralTurn_last hrest hread).mono (fun turn u hturn => ?_) fun _ _ h => h.elim
      cases turn with
      | last w =>
        obtain ⟨rfl, rfl⟩ := hturn
        rw [List.append_nil]
        exact hread
      | next w => exact hturn.1.elim
    | cons d more =>
      refine (ends_numeralTurn_digit hread).mono (fun turn u hturn => ?_) fun f u hf => ?_
      · cases turn with
        | last w => exact hturn.elim
        | next w => exact ⟨⟨done ++ [d], more, List.append_cons .., hturn.1⟩, hturn.2⟩
      · obtain ⟨rfl, hexceeds, htook⟩ := hf
        refine ⟨rfl, ?_, (done ++ [d]).length, ?_, htook⟩
        · rw [List.append_cons]
          exact hexceeds.append more
        · rw [List.length_append]
          exact isLeast_exceeds hread.fits hexceeds
  · exact ⟨[], digits, rfl, ⟨⟨rfl, rfl, rfl⟩, hu, rfl, not_exceeds_nil⟩⟩

/-- Where the digits are read, the scanner is at the character after them. -/
theorem HasRead.next_eq (h : HasRead settings s digits [] rest v t) :
    s.scanner.text[s.scanner.position + digits.length]? = t.scanner.peek? := by
  rw [← h.text, ← h.position, Scanner.getElem?_position]

theorem ends_numeral_digits (hu : s.scanner.unread = digits.map Digit.toChar ++ rest)
    (hrest : ∀ c, rest.head? = some c → Digit.ofChar? c = none) :
    Ends (numeral settings) s (fun v => NumberEnds settings s digits (.ok v))
      (fun f => NumberEnds settings s digits (.error (.fault f))) := by
  unfold numeral
  rw [ends_bind, ends_scanner, ends_bind]
  refine (ends_numeralLoop hu hrest).mono (fun v t hread => ?_) fun f t hf => ?_
  · have hnext := hread.next_eq
    rw [ends_bind, ends_scanner]
    split
    · rename_i hpeek
      rw [hpeek] at hnext
      rw [hread.value]
      refine NumberEnds.value hread.fits (fun c hc => ?_) hread.toTook
      cases hnext.symm.trans hc
    · rename_i c hpeek
      rw [hpeek] at hnext
      split
      · rename_i hforeign
        have hfault : faultAt .invalidDigit t.scanner (some c) =
            { kind := .invalidDigit
              position := some ((s.scanner.position + digits.length : Nat) : Int)
              character := some (String.singleton c) } := by
          rw [faultAt, hread.position]
          rfl
        rw [ends_fail, hfault]
        exact .foreign hread.fits hnext hforeign ⟨hread.text, hread.position, hread.depth⟩
      · rename_i hforeign
        have hnone : ∀ d, s.scanner.text[s.scanner.position + digits.length]? = some d →
            isForeignDigit d = false := fun d hd => by
          cases hnext.symm.trans hd
          exact Bool.eq_false_iff.2 hforeign
        have hvalue := NumberEnds.value hread.fits hnone hread.toTook
        rwa [← hread.value] at hvalue
  · obtain ⟨rfl, hexceeds, n, hleast, htook⟩ := hf
    exact .overflow hexceeds hleast htook

end

/-! ### From any state -/

theorem numberEnds_rule (settings : Settings) (s : State) :
    NumberEnds settings s (leadingDigits s.scanner.unread)
      (outcome (rule settings .number) s).1 (outcome (rule settings .number) s).2 := by
  obtain ⟨rest, hu, hrest⟩ := leadingDigits_split s.scanner.unread
  exact (ends_numeral_digits hu hrest).to_outcome

section
variable {settings : Settings} {s t : State} {digits : List Digit} {result : Except Failure Int}

theorem NumberEnds.eq_ok_iff (h : NumberEnds settings s digits result t) (v : Int) :
    result = .ok v ↔ ¬Exceeds settings digits ∧
      (∀ c, s.scanner.unread[digits.length]? = some c → isForeignDigit c = false) ∧
      v = Numeral.ofDigits digits := by
  cases h with
  | overflow large first took => simp [large]
  | foreign fits next is_foreign took =>
    rw [Scanner.getElem?_position_add] at next
    simp [next, is_foreign]
  | value fits next took =>
    simp only [Scanner.getElem?_position_add] at next
    simp only [Except.ok.injEq, fits, not_false_eq_true, true_and]
    exact ⟨fun hv => ⟨next, hv.symm⟩, fun hv => hv.2.symm⟩

theorem NumberEnds.eq_overflow_iff (h : NumberEnds settings s digits result t) :
    result = .error (.fault { kind := .overflow, position := some s.scanner.position }) ↔
      Exceeds settings digits := by
  cases h with
  | overflow large first took => simp [large]
  | foreign fits next is_foreign took => simp [fits]
  | value fits next took => simp [fits]

end

/-- The state with as many zeros in front of what is unread. -/
def State.zerosAhead (zeros : Nat) (s : State) : State :=
  {s with scanner := {s.scanner with unread := List.replicate zeros '0' ++ s.scanner.unread}}

/-- The results are the same value, or the same overflow, or something else is wrong with both. -/
def SameNumber (place : Scanner) (result result' : Except Failure Int) : Prop :=
  (∀ v, result = .ok v ↔ result' = .ok v) ∧
    (result = .error (.fault (faultAt .overflow place none)) ↔
      result' = .error (.fault (faultAt .overflow place none)))

theorem sameNumber_zerosAhead (settings : Settings) (s : State) (zeros : Nat) :
    SameNumber s.scanner (outcome (rule settings .number) s).1
      (outcome (rule settings .number) (s.zerosAhead zeros)).1 := by
  have h := numberEnds_rule settings s
  have h' := numberEnds_rule settings (s.zerosAhead zeros)
  have hdigits : leadingDigits (s.zerosAhead zeros).scanner.unread =
      List.replicate zeros 0 ++ leadingDigits s.scanner.unread := leadingDigits_zeros zeros _
  have hnext : (s.zerosAhead zeros).scanner.unread[
      (List.replicate zeros (0 : Digit) ++ leadingDigits s.scanner.unread).length]? =
        s.scanner.unread[(leadingDigits s.scanner.unread).length]? := by
    show (List.replicate zeros '0' ++ s.scanner.unread)[_]? = _
    rw [List.length_append, List.length_replicate, List.getElem?_append_right (by simp)]
    simp
  rw [hdigits] at h'
  constructor
  · intro v
    rw [h.eq_ok_iff, h'.eq_ok_iff, hnext, exceeds_zeros_iff, Numeral.ofDigits_zeros]
  · exact h.eq_overflow_iff.trans (exceeds_zeros_iff zeros).symm |>.trans h'.eq_overflow_iff.symm

/-- **From any state the rule for numerals reads the digits that come next, and they with the
character after them decide how it ends.** A check after each digit amounts to one of the whole
numeral, and zeros in front change neither its value nor whether it is too large. -/
theorem number_reads_leading_digits (settings : Settings) (s : State) :
    (leadingDigits s.scanner.unread).map Digit.toChar =
      (s.scanner.text.drop s.scanner.position).takeWhile (· ∈ ['0', '1', '2']) ∧
    NumberEnds settings s (leadingDigits s.scanner.unread)
      (outcome (rule settings .number) s).1 (outcome (rule settings .number) s).2 ∧
    ((∃ n, Exceeds settings ((leadingDigits s.scanner.unread).take n)) ↔
      Exceeds settings (leadingDigits s.scanner.unread)) ∧
    ∀ zeros, SameNumber s.scanner (outcome (rule settings .number) s).1
      (outcome (rule settings .number) (s.zerosAhead zeros)).1 := by
  refine ⟨?_, numberEnds_rule settings s, ⟨fun ⟨_, hn⟩ => hn.of_take, fun h => ?_⟩,
    sameNumber_zerosAhead settings s⟩
  · rw [map_leadingDigits, Scanner.drop_position]
  · exact ⟨(leadingDigits s.scanner.unread).length, by rwa [List.take_length]⟩

/-- In an open group, a numeral one above the range and a digit that belongs to none: the range is
what it fails by. -/
theorem number_overflows_before_foreign_digit :
    ∃ t, NumberEnds {overflow := .error, bits := 32}
      {scanner := ⟨"*2(".toList, "012112122212110202102".toList ++ "7)".toList⟩, depth := 1}
      (leadingDigits "012112122212110202102".toList)
      (.error (.fault { kind := .overflow, position := some 3 })) t ∧ t.scanner.position = 24 := by
  have hends := (number_reads_leading_digits {overflow := .error, bits := 32}
    {scanner := ⟨"*2(".toList, "012112122212110202102".toList ++ "7)".toList⟩, depth := 1}).2.1
  have hresult : (outcome (rule {overflow := .error, bits := 32} .number)
      {scanner := ⟨"*2(".toList, "012112122212110202102".toList ++ "7)".toList⟩
       depth := 1}).1 = .error (.fault { kind := .overflow, position := some 3 }) := by
    decide +kernel
  rw [hresult] at hends
  exact ⟨_, hends, by decide +kernel⟩

end Evaluation

end BaseThree
