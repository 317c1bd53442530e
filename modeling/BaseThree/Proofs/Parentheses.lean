import BaseThree.Parentheses
import BaseThree.Proofs.Reading.Soundness

/-! What a text leaves open.

A stretch that has the form of a rule closes every parenthesis that it opens. It leaves the
frames as they were, but that an expression may move the start of the last term in the innermost
one (`openFrom_of_derives`). So the innermost frame of what has been read is the group in which
the reading stands (`Opens.openIn`), and its last term is the one that comes after the additive
operator that waits there (`Waits.openFrom_additive`). -/
namespace BaseThree
open Grammar
open Evaluation (Rule)

namespace Frame

/-- Where in a frame the left operand of an operator of this precedence starts. -/
def left (f : Frame) : Precedence → Nat
  | .additive => f.content
  | .multiplicative => f.term

theorem openFrom_append (k : Nat) (frames : List Frame) (u w : List Char) :
    openFrom k frames (u ++ w) = openFrom (k + u.length) (openFrom k frames u) w := by
  induction u generalizing k frames with
  | nil => rfl
  | cons c rest ih =>
    rw [List.cons_append, openFrom, ih, openFrom, List.length_cons, Nat.add_assoc, Nat.add_comm 1]

theorem openIn_append (u w : List Char) :
    openIn (u ++ w) = openFrom u.length (openIn u) w := by
  unfold openIn
  rw [openFrom_append, Nat.zero_add]

/-- Only parentheses and the operators between terms matter to frames. -/
theorem openFrom_of_not_mem {w : List Char} (h : ∀ c ∈ w, c ∉ ['(', ')', '+', '-']) (k : Nat)
    (frames : List Frame) : openFrom k frames w = frames := by
  induction w generalizing k with
  | nil => rfl
  | cons c rest ih =>
    have hc := h c (List.mem_cons_self ..)
    have hafter : after k c frames = frames := by
      unfold after
      split <;> first | rfl | exact absurd (by decide) hc
    rw [openFrom, hafter]
    exact ih (fun d hd => h d (List.mem_cons_of_mem c hd)) (k + 1)

theorem openFrom_of_blank {b : List Char} (h : IsBlank b) (k : Nat) (frames : List Frame) :
    openFrom k frames b = frames := by
  refine openFrom_of_not_mem (fun c hc hm => ?_) k frames
  have hb := h c hc
  simp only [List.mem_cons, List.not_mem_nil, or_false] at hm
  rcases hm with rfl | rfl | rfl | rfl <;> cases hb

theorem openFrom_digits (digits : List Digit) (k : Nat) (frames : List Frame) :
    openFrom k frames (digits.map Digit.toChar) = frames := by
  refine openFrom_of_not_mem (fun c hc => ?_) k frames
  obtain ⟨d, -, rfl⟩ := List.mem_map.1 hc
  exact (by decide : ∀ d : Digit, d.toChar ∉ ['(', ')', '+', '-']) d

theorem after_multiplicative {c : Char} {op : Operator}
    (h : Precedence.multiplicative.operator? c = some op) (k : Nat) (frames : List Frame) :
    after k c frames = frames := by
  have hm := Precedence.mem_of_operator? h
  simp only [List.mem_cons, List.not_mem_nil, or_false] at hm
  rcases hm with rfl | rfl <;> rfl

theorem after_additive {c : Char} {op : Operator}
    (h : Precedence.additive.operator? c = some op) (k : Nat) (f : Frame) (outer : List Frame) :
    after k c (f :: outer) = ⟨f.content, k + 1⟩ :: outer := by
  have hm := Precedence.mem_of_operator? h
  simp only [List.mem_cons, List.not_mem_nil, or_false] at hm
  rcases hm with rfl | rfl <;> rfl

/-- **What has the form of a rule leaves nothing open**, and unless it is an expression it leaves
the term that it stands in as it was. -/
theorem openFrom_of_derives {r : Rule} {k : Nat} {w : List Char} {t : Tree} (h : Derives r k w t)
    (f : Frame) (outer : List Frame) :
    ∃ x, openFrom k (f :: outer) w = ⟨f.content, x⟩ :: outer ∧ (r ≠ .expression → x = f.term) := by
  induction h generalizing f outer with
  | number some_digit => exact ⟨f.term, openFrom_digits _ _ _, fun _ => rfl⟩
  | numeral blank number ih =>
    obtain ⟨x, hx, hterm⟩ := ih f outer
    refine ⟨x, ?_, fun _ => hterm nofun⟩
    rw [openFrom_append, openFrom_of_blank blank, hx]
  | @group k b w e t blank blank_end inner ih =>
    obtain ⟨x, hx, -⟩ := ih ⟨k + b.length + 1, k + b.length + 1⟩ (f :: outer)
    refine ⟨f.term, ?_, fun _ => rfl⟩
    rw [openFrom_append, openFrom_of_blank blank, openFrom]
    show openFrom _ (⟨k + b.length + 1, k + b.length + 1⟩ :: f :: outer) _ = _
    rw [openFrom_append, openFrom_append, hx, openFrom_of_blank blank_end]
    rfl
  | factor first ih =>
    obtain ⟨x, hx, hterm⟩ := ih f outer
    exact ⟨x, hx, fun _ => hterm nofun⟩
  | product left blank operator right ihl ihr =>
    obtain ⟨x, hx, hterm⟩ := ihl f outer
    obtain ⟨y, hy, hterm'⟩ := ihr f outer
    rw [hterm nofun] at hx
    refine ⟨y, ?_, fun _ => hterm' nofun⟩
    rw [openFrom_append, openFrom_append, hx, openFrom_of_blank blank, openFrom,
      after_multiplicative operator, List.length_append, ← Nat.add_assoc]
    exact hy
  | term first ih =>
    obtain ⟨x, hx, -⟩ := ih f outer
    exact ⟨x, hx, fun hr => absurd rfl hr⟩
  | @sum k c b w v l r op left blank operator right ihl ihr =>
    obtain ⟨x, hx, -⟩ := ihl f outer
    obtain ⟨y, hy, -⟩ := ihr ⟨f.content, k + w.length + b.length + 1⟩ outer
    refine ⟨y, ?_, fun hr => absurd rfl hr⟩
    rw [openFrom_append, openFrom_append, hx, openFrom_of_blank blank, openFrom,
      after_additive operator, List.length_append, ← Nat.add_assoc]
    exact hy

/-- The left operand of an operator leaves the start of that operand as it was. -/
theorem left_openFrom {p : Precedence} {k : Nat} {w b : List Char} {t : Tree}
    (h : Derives p.chain k w t) (hb : IsBlank b) (f : Frame) (outer : List Frame) :
    ∃ g, openFrom k (f :: outer) (w ++ b) = g :: outer ∧ g.left p = f.left p := by
  obtain ⟨x, hx, hterm⟩ := openFrom_of_derives h f outer
  refine ⟨⟨f.content, x⟩, ?_, ?_⟩
  · rw [openFrom_append, hx, openFrom_of_blank hb]
  · cases p with
    | additive => rfl
    | multiplicative => exact hterm nofun

end Frame

open BaseThree.Frame

/-- Where an additive operator waits, its right operand starts a term. -/
theorem Waits.openFrom_additive {limit k : Nat} {pending : Option (Pending Tree)} {w : List Char}
    (h : Waits limit .additive k pending w) (outer : List Frame) :
    openFrom k (⟨k, k⟩ :: outer) w = ⟨k, k + w.length⟩ :: outer := by
  cases h with
  | none => rfl
  | @some w b c op t left blank operator =>
    obtain ⟨g, hg, hcontent⟩ := left_openFrom left.derives blank ⟨k, k⟩ outer
    have hcontent : g.content = k := hcontent
    rw [openFrom_append, hg, openFrom, after_additive operator, hcontent]
    simp only [List.length_append, List.length_singleton, ← Nat.add_assoc]
    rfl

/-- A multiplicative one goes on the term that it stands in. -/
theorem Waits.openFrom_multiplicative {limit k : Nat} {pending : Option (Pending Tree)}
    {w : List Char} (h : Waits limit .multiplicative k pending w) (f : Frame)
    (outer : List Frame) : openFrom k (f :: outer) w = f :: outer := by
  cases h with
  | none => rfl
  | @some w b c op t left blank operator =>
    obtain ⟨x, hx, hterm⟩ := openFrom_of_derives left.derives f outer
    rw [hterm nofun] at hx
    rw [openFrom_append, openFrom_append, hx, openFrom_of_blank blank, openFrom,
      after_multiplicative operator]
    rfl

/-- The innermost group that is open starts where the reading stands in it. -/
theorem Opens.openIn {nesting : Nat} {outer : List (Level Tree)} {u : List Char}
    (h : Opens nesting outer u) : ∃ frames, openIn u = ⟨u.length, u.length⟩ :: frames := by
  induction h with
  | whole => exact ⟨[], rfl⟩
  | @group level outer u w b opens inLevel blank lt ih =>
    obtain ⟨frames, hframes⟩ := ih
    obtain ⟨sums, products⟩ := inLevel
    rename_i w v
    refine ⟨⟨u.length, u.length + w.length⟩ :: frames, ?_⟩
    have hframe : Frame.openIn (u ++ (w ++ v) ++ b) =
        ⟨u.length, u.length + w.length⟩ :: frames := by
      rw [openIn_append, openIn_append, hframes, openFrom_append, sums.openFrom_additive,
        products.openFrom_multiplicative, openFrom_of_blank blank]
    have hlength : (u ++ (w ++ v) ++ b ++ ['(']).length = (u ++ (w ++ v) ++ b).length + 1 :=
      List.length_append
    rw [openIn_append, hframe, hlength]
    rfl

end BaseThree
