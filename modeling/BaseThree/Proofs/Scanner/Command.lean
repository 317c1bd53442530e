import BaseThree.Proofs.Scanner
import BaseThree.Scanner.Command

/-! Runs of commands.

A command is answered from the text and the offset of its scanner alone (`reply_perform`), and does
to it what `Obeys` says. So it is in a family, whichever members the commands before were for: none
reaches another member, each keeps its text, and what the records of a run show as taken for a
member is its text up to where it stands, no character lost and none taken twice
(`family_takes_texts_in_order`). -/
namespace BaseThree.Scanner

/-! ### Single commands -/

/-- What is replied to a command at an offset of a text. -/
def Command.replyAt (text : List Char) (k : Nat) : Command → Reply
  | .peek => .ok (match text[k]? with | none => .nothing | some c => .text [c])
  | .advance => match text[k]? with | none => .error ⟨k⟩ | some c => .ok (.text [c])
  | .skipBlanks => .ok .nothing
  | .atEnd => .ok (.truth (k == text.length))
  | .remaining => .ok (.text (text.drop k))
  | .position => .ok (.number k)
  | .text => .ok (.text text)
  | .describe => .ok (.text ("Cursor(position=" ++ toString k ++ ", length=" ++
      toString text.length ++ ")").toList)

/-- What a command does to a scanner `s` that it leaves as `t`. -/
structure Obeys (s : Scanner) (c : Command) (reply : Reply) (t : Scanner) : Prop where
  text : t.text = s.text
  forward : s.position ≤ t.position
  reply_eq : reply = c.replyAt s.text s.position
  /-- Advancing fails where looking shows the end, and nothing has happened; else it takes the one
  character that looking shows. -/
  advance : c = .advance →
    ((s.perform .peek).1 = .ok .nothing ∧ reply = .error ⟨s.position⟩ ∧ t = s) ∨
    ∃ d, (s.perform .peek).1 = .ok (.text [d]) ∧ reply = .ok (.text [d]) ∧
      t.position = s.position + 1
  /-- Skipping ends at the first place where it can, and done again does nothing. -/
  skip : c = .skipBlanks → IsLeast {k | s.position ≤ k ∧ StopsAt s.text k} t.position ∧
    (∀ d ∈ (s.text.take t.position).drop s.position, Text.isBlank d = true) ∧
    (t.perform .skipBlanks).2 = t
  still : c ≠ .advance → c ≠ .skipBlanks → t = s

section
variable {s t : Scanner} {c : Command} {reply : Reply}

theorem perform_advance_end (h : s.peek? = none) :
    s.perform .advance = (.error ⟨s.position⟩, s) := by
  simp [perform, next?, unread_of_peek?_none h]

theorem perform_advance {d : Char} {rest : List Char} (h : s.unread = d :: rest) :
    s.perform .advance = (.ok (.text [d]), ⟨d :: s.passed, rest⟩) := by
  simp [perform, next?, h]

theorem reply_perform (s : Scanner) (c : Command) :
    (s.perform c).1 = c.replyAt s.text s.position := by
  cases c with
  | advance =>
    simp only [Command.replyAt, getElem?_position]
    cases hd : s.peek? with
    | none => rw [perform_advance_end hd]
    | some d =>
      obtain ⟨rest, hu⟩ := unread_of_peek? hd
      rw [perform_advance hu]
  | atEnd =>
    have hend : s.atEnd = (s.position == s.text.length) := by
      rw [Bool.eq_iff_iff, beq_iff_eq, position_eq_length_iff]
      exact List.isEmpty_iff
    simp only [perform, Command.replyAt, hend]
  | peek =>
    cases hd : s.peek? with
    | none => simp [perform, Command.replyAt, getElem?_position, hd]
    | some c => simp [perform, Command.replyAt, getElem?_position, hd]
  | remaining => simp only [perform, Command.replyAt, drop_position]
  | _ => rfl

theorem obeys_perform (s : Scanner) (c : Command) : Obeys s c (s.perform c).1 (s.perform c).2 := by
  have htext := text_perform s c
  have hreply := reply_perform s c
  cases c with
  | advance =>
    cases hd : s.peek? with
    | none =>
      rw [perform_advance_end hd] at htext hreply ⊢
      refine ⟨htext, Nat.le_refl _, hreply, fun _ => .inl ⟨by simp [perform, hd], rfl, rfl⟩,
        fun h => ?_, fun h => absurd rfl h⟩
      cases h
    | some d =>
      obtain ⟨rest, hu⟩ := unread_of_peek? hd
      rw [perform_advance hu] at htext hreply ⊢
      refine ⟨htext, Nat.le_succ _, hreply, fun _ => .inr ⟨d, by simp [perform, hd], rfl, rfl⟩,
        fun h => ?_, fun h => absurd rfl h⟩
      cases h
  | skipBlanks =>
    refine ⟨htext, s.position_le_skipBlanks, hreply, fun h => ?_, fun _ => ⟨s.isLeast_skipBlanks,
      ?_, s.skipBlanks_skipBlanks⟩, fun _ h => absurd rfl h⟩
    · cases h
    · intro d hd
      have hslice := s.slice_skipBlanks
      simp only [perform] at hd
      rw [hslice] at hd
      exact List.all_eq_true.1 List.all_takeWhile d hd
  | _ =>
    refine ⟨htext, Nat.le_refl _, hreply, fun h => ?_, fun h => ?_, fun _ _ => rfl⟩
    · cases h
    · cases h

/-- What a command has taken of a text between two offsets: the character it was answered with, or
all that it has passed over. -/
def Command.taken (text : List Char) (k l : Nat) : Command → Reply → List Char
  | .advance, .ok (.text taken) => taken
  | .skipBlanks, _ => (text.take l).drop k
  | _, _ => []

/-- It is what stands there. -/
theorem Obeys.take_append_taken (h : Obeys s c reply t) :
    s.text.take s.position ++ c.taken s.text s.position t.position reply =
      s.text.take t.position := by
  by_cases ha : c = .advance
  · subst ha
    rcases h.advance rfl with ⟨-, rfl, rfl⟩ | ⟨d, hpeek, rfl, hposition⟩
    · simp [Command.taken]
    · have hd : s.text[s.position]? = some d := by
        have hreply := h.reply_eq
        cases hget : s.text[s.position]? <;> simp_all [Command.replyAt]
      rw [hposition, List.take_add_one, hd]
      rfl
  · by_cases hs : c = .skipBlanks
    · subst hs
      have htake : s.text.take s.position = (s.text.take t.position).take s.position := by
        rw [List.take_take, Nat.min_eq_left h.forward]
      simp only [Command.taken]
      rw [htake, List.take_append_drop]
    · have hnothing : c.taken s.text s.position t.position reply = [] := by
        cases c <;> first | rfl | contradiction
      rw [hnothing, List.append_nil, h.still ha hs]

end

/-! ### Families -/

namespace Family

/-- A scanner at the start of each text. -/
def ofTexts (texts : List (List Char)) : Family := texts.map start

/-- What the records of a run show as taken for one member, which began at the offset `k` of its
text. A record is a command with its reply and the offset of its scanner afterwards. -/
def taken (text : List Char) (member : Nat) (k : Nat) :
    List ((Nat × Command) × (Reply × Nat)) → List Char
  | [] => []
  | ((m, c), (reply, l)) :: rest =>
    if m = member then c.taken text k l reply ++ taken text member l rest
    else taken text member k rest

variable {family : Family} {member : Nat} {s : Scanner}

theorem step_of_member (h : family[member]? = some s) (c : Command) :
    family.step member c = some (((s.perform c).1, (s.perform c).2.position),
      family.set member (s.perform c).2) := by
  simp [step, h]

theorem get_set_self (h : family[member]? = some s) (t : Scanner) :
    (family.set member t)[member]? = some t :=
  List.getElem?_set_self (List.getElem?_eq_some_iff.1 h).1

/-- A command for a member that is there, and the commands after it. -/
theorem run_cons (h : family[member]? = some s) (c : Command) (rest : List (Nat × Command)) :
    family.run ((member, c) :: rest) =
      (((s.perform c).1, (s.perform c).2.position) ::
          (run (family.set member (s.perform c).2) rest).1,
        (run (family.set member (s.perform c).2) rest).2) := by
  rw [run, step_of_member h]

theorem length_run (family : Family) (commands : List (Nat × Command)) :
    (family.run commands).2.length = family.length := by
  induction commands generalizing family with
  | nil => rfl
  | cons command rest ih =>
    obtain ⟨m, c⟩ := command
    cases hs : family[m]? with
    | none => simp [run, step, hs]
    | some s =>
      rw [run_cons hs, ih, List.length_set]

/-- As long as there are members for them, all commands are replied to. -/
theorem run_append {commands : List (Nat × Command)}
    (h : ∀ command ∈ commands, command.1 < family.length) (more : List (Nat × Command)) :
    (family.run commands).1.length = commands.length ∧
      family.run (commands ++ more) =
        ((family.run commands).1 ++ ((family.run commands).2.run more).1,
          ((family.run commands).2.run more).2) := by
  induction commands generalizing family with
  | nil => exact ⟨rfl, rfl⟩
  | cons command rest ih =>
    obtain ⟨m, c⟩ := command
    have hlt : m < family.length := h _ (List.mem_cons_self ..)
    have hs : family[m]? = some family[m] := List.getElem?_eq_getElem hlt
    obtain ⟨hlength, hrun⟩ := @ih (family.set m (family[m].perform c).2)
      fun p hp => by simpa using h p (List.mem_cons_of_mem _ hp)
    rw [List.cons_append, run_cons hs, run_cons hs, hrun]
    exact ⟨congrArg (· + 1) hlength, rfl⟩

/-- **What the records show as taken for a member is what it has come past.** -/
theorem take_append_taken (hs : family[member]? = some s) (commands : List (Nat × Command)) :
    ∃ t, (family.run commands).2[member]? = some t ∧ t.text = s.text ∧
      s.text.take s.position ++
          taken s.text member s.position (commands.zip (family.run commands).1) =
        s.text.take t.position := by
  induction commands generalizing family s with
  | nil => exact ⟨s, hs, rfl, List.append_nil _⟩
  | cons command rest ih =>
    obtain ⟨m, c⟩ := command
    cases hm : family[m]? with
    | none => exact ⟨s, by simpa [run, step, hm] using hs, rfl, by simp [run, step, hm, taken]⟩
    | some r =>
      rw [run_cons hm]
      by_cases heq : m = member
      · subst heq
        rw [hs, Option.some.injEq] at hm
        subst hm
        have hobeys := obeys_perform s c
        obtain ⟨t, ht, htext, htaken⟩ := ih (get_set_self hs (s.perform c).2)
        refine ⟨t, ht, htext.trans hobeys.text, ?_⟩
        rw [hobeys.text, ← hobeys.take_append_taken, List.append_assoc] at htaken
        simpa [taken] using htaken
      · have hother : (family.set m (r.perform c).2)[member]? = some s := by
          rw [get_step_of_ne (step_of_member hm c) (Ne.symm heq), hs]
        obtain ⟨t, ht, htext, htaken⟩ := ih hother
        exact ⟨t, ht, htext, by simpa [taken, heq] using htaken⟩

end Family

/-- **In whatever order commands come, each scanner takes its own text from the front, and nothing
of it is lost or repeated.** -/
theorem family_takes_texts_in_order (texts : List (List Char)) (commands : List (Nat × Command))
    (hmembers : ∀ command ∈ commands, command.1 < texts.length) :
    ((Family.ofTexts texts).run commands).1.length = commands.length ∧
    ((Family.ofTexts texts).run commands).2.length = texts.length ∧
    ∀ (member : Nat) (text : List Char), texts[member]? = some text →
      ∃ s, ((Family.ofTexts texts).run commands).2[member]? = some s ∧
        s.text = text ∧ s.position ≤ text.length ∧
        (∃ rest, (s.perform .remaining).1 = .ok (.text rest) ∧
          text.take s.position ++ rest = text) ∧
        Family.taken text member 0 (commands.zip ((Family.ofTexts texts).run commands).1) =
          text.take s.position ∧
        ∀ c, ∃ reply t family,
          (Family.ofTexts texts).run (commands ++ [(member, c)]) =
            (((Family.ofTexts texts).run commands).1 ++ [(reply, t.position)], family) ∧
          family[member]? = some t ∧
          (∀ other, other ≠ member →
            family[other]? = ((Family.ofTexts texts).run commands).2[other]?) ∧
          Obeys s c reply t := by
  have hlength : (Family.ofTexts texts).length = texts.length := List.length_map ..
  have hthere : ∀ command ∈ commands, command.1 < (Family.ofTexts texts).length := by
    rwa [hlength]
  refine ⟨(Family.run_append hthere []).1, (Family.length_run _ _).trans hlength,
    fun member text htext => ?_⟩
  have hstart : (Family.ofTexts texts)[member]? = some (start text) := by
    simp [Family.ofTexts, htext]
  obtain ⟨s, hs, hstext, htaken⟩ := Family.take_append_taken hstart commands
  rw [text_start] at hstext htaken
  subst hstext
  refine ⟨s, hs, rfl, s.position_le_length, ⟨s.unread, rfl, ?_⟩, by simpa using htaken,
    fun c => ⟨(s.perform c).1, (s.perform c).2, _, ?_, Family.get_set_self hs _, fun other hne =>
      Family.get_step_of_ne (Family.step_of_member hs c) hne, obeys_perform s c⟩⟩
  · rw [← drop_position, List.take_append_drop]
  · rw [(Family.run_append hthere [(member, c)]).2, Family.run_cons hs]
    rfl

/-- The second scanner comes to its end and fails there, in between the commands for the first. -/
theorem family_with_failure_between :
    (∀ command ∈ [(0, Command.skipBlanks), (1, .advance), (1, .advance), (0, .advance)],
      command.1 < [" 1+".toList, "2".toList].length) ∧
    ∃ s, ((Family.ofTexts [" 1+".toList, "2".toList]).run
        [(0, .skipBlanks), (1, .advance), (1, .advance), (0, .advance)]).2[0]? = some s ∧
      s.position = 2 ∧ Family.taken " 1+".toList 0 0
        ([(0, .skipBlanks), (1, .advance), (1, .advance), (0, .advance)].zip
          ((Family.ofTexts [" 1+".toList, "2".toList]).run
            [(0, .skipBlanks), (1, .advance), (1, .advance), (0, .advance)]).1) = " 1".toList := by
  have hmembers :
      ∀ command ∈ [(0, Command.skipBlanks), (1, .advance), (1, .advance), (0, .advance)],
        command.1 < [" 1+".toList, "2".toList].length := by decide
  obtain ⟨-, -, hall⟩ := family_takes_texts_in_order [" 1+".toList, "2".toList] _ hmembers
  obtain ⟨s, hs, -, -, -, htaken, -⟩ := hall 0 " 1+".toList rfl
  have hposition : s.position = 2 := by
    cases hs
    rfl
  refine ⟨hmembers, s, hs, hposition, ?_⟩
  rw [htaken, hposition]
  rfl

end BaseThree.Scanner
