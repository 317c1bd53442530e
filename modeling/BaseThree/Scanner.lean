import BaseThree.Text.Blank

/-! Scanners.

A scanner stands between two characters of a text: those it has passed, nearest
first, and those it has not read. What it can do is look at the next character,
take it, or pass over blanks; it never goes back, and it never leaves its text
(`text_next?`, `text_skipBlanks`). -/
namespace BaseThree

structure Scanner where
  /-- The characters before the scanner, nearest first. -/
  passed : List Char := []
  /-- The characters after it. -/
  unread : List Char
  deriving DecidableEq, Repr

namespace Scanner

/-- A scanner at the start of a text. -/
def start (text : List Char) : Scanner := { unread := text }

/-- The text around the scanner, all of it. -/
def text (s : Scanner) : List Char := s.passed.reverse ++ s.unread

/-- The number of characters before the scanner. -/
def position (s : Scanner) : Nat := s.passed.length

def atEnd (s : Scanner) : Bool := s.unread.isEmpty

def peek? (s : Scanner) : Option Char := s.unread.head?

/-- Takes the next character. -/
def next? (s : Scanner) : Option (Char × Scanner) :=
  match s.unread with
  | [] => none
  | c :: rest => some (c, ⟨c :: s.passed, rest⟩)

/-- Passes over blanks, up to the end or a character that is not blank. -/
def skipFrom (passed : List Char) : List Char → Scanner
  | [] => ⟨passed, []⟩
  | c :: rest => if Text.isBlank c then skipFrom (c :: passed) rest else ⟨passed, c :: rest⟩

def skipBlanks (s : Scanner) : Scanner := skipFrom s.passed s.unread

def describe (s : Scanner) : String :=
  "Cursor(position=" ++ toString s.position ++ ", length=" ++ toString s.text.length ++ ")"

/-- The end of the text, where no character can be taken. -/
structure EndOfText where
  position : Nat
  deriving DecidableEq, Repr

def EndOfText.message (e : EndOfText) : String :=
  "cursor at end of input (position " ++ toString e.position ++ ")"

/-! ### Nothing is lost -/

@[simp] theorem text_start (t : List Char) : (start t).text = t := rfl

@[simp] theorem position_start (t : List Char) : (start t).position = 0 := rfl

theorem text_next? {s t : Scanner} {c : Char} (h : s.next? = some (c, t)) : t.text = s.text := by
  obtain ⟨passed, unread⟩ := s
  cases unread with
  | nil => simp [next?] at h
  | cons d rest =>
    simp only [next?, Option.some.injEq, Prod.mk.injEq] at h
    obtain ⟨rfl, rfl⟩ := h
    simp [text]

theorem skipFrom_passed (passed unread : List Char) :
    (skipFrom passed unread).passed = (unread.takeWhile Text.isBlank).reverse ++ passed := by
  induction unread generalizing passed with
  | nil => rfl
  | cons c rest ih => by_cases h : Text.isBlank c <;> simp [skipFrom, h, ih]

theorem skipFrom_unread (passed unread : List Char) :
    (skipFrom passed unread).unread = unread.dropWhile Text.isBlank := by
  induction unread generalizing passed with
  | nil => rfl
  | cons c rest ih => by_cases h : Text.isBlank c <;> simp [skipFrom, h, ih]

@[simp] theorem unread_skipBlanks (s : Scanner) :
    s.skipBlanks.unread = s.unread.dropWhile Text.isBlank := skipFrom_unread _ _

@[simp] theorem passed_skipBlanks (s : Scanner) :
    s.skipBlanks.passed = (s.unread.takeWhile Text.isBlank).reverse ++ s.passed := skipFrom_passed _ _

@[simp] theorem text_skipBlanks (s : Scanner) : s.skipBlanks.text = s.text := by
  simp [text]

end Scanner

end BaseThree
