import BaseThree.Proofs.Reading.Trees

/-! What is read is derived.

A reading of trees covers the characters it has taken: every group that it has open,
every operator that waits and the factor at its end stand for a stretch of the text, and
their trees are derived from these stretches (`Covers`). Each character extends the cover
by one, so a tree that comes out of a whole text is the tree of that text
(`isTree_of_run`). -/
namespace BaseThree
open Grammar
open Evaluation (Rule)

/-- A derivation whose groups nest no deeper than `limit`. -/
structure Spans (limit : Nat) (r : Rule) (k : Nat) (w : List Char) (t : Tree) : Prop where
  derives : Derives r k w t
  nesting_le : t.nesting ≤ limit

/-- The stretch that a waiting operator stands for, itself included. -/
inductive Waits (limit : Nat) (p : Precedence) (k : Nat) :
    Option (Pending Tree) → List Char → Prop
  | none : Waits limit p k none []
  | some {w b : List Char} {c : Char} {op : Operator} {t : Tree}
    (left : Spans limit p.chain k w t) (blank : IsBlank b) (operator : p.operator? c = some op) :
    Waits limit p k (some ⟨op, k + w.length + b.length, t⟩) (w ++ b ++ [c])

/-- The stretch of one group up to the factor at its end. -/
inductive InLevel (limit k : Nat) : Level Tree → List Char → Prop
  | intro {sum product : Option (Pending Tree)} {w v : List Char}
    (sums : Waits limit .additive k sum w)
    (products : Waits limit .multiplicative (k + w.length) product v) :
    InLevel limit k ⟨sum, product⟩ (w ++ v)

/-- The stretch up to where the innermost group's content starts. -/
inductive Opens (nesting : Nat) : List (Level Tree) → List Char → Prop
  | whole : Opens nesting [] []
  | group {level : Level Tree} {outer : List (Level Tree)} {u w b : List Char}
    (opens : Opens nesting outer u)
    (inLevel : InLevel (nesting - outer.length) u.length level w) (blank : IsBlank b)
    (lt : outer.length < nesting) : Opens nesting (level :: outer) (u ++ w ++ b ++ ['('])

inductive Covers (nesting : Nat) : Reading Tree → List Char → Prop
  | operand {level : Level Tree} {outer : List (Level Tree)} {u w b : List Char}
    (opens : Opens nesting outer u)
    (inLevel : InLevel (nesting - outer.length) u.length level w) (blank : IsBlank b) :
    Covers nesting ⟨.operand, level, outer⟩ (u ++ w ++ b)
  | numeral {level : Level Tree} {outer : List (Level Tree)} {u w b : List Char} {k : Nat}
    {digits : List Digit} (opens : Opens nesting outer u)
    (inLevel : InLevel (nesting - outer.length) u.length level w) (blank : IsBlank b)
    (some_digit : digits ≠ []) (place : k = u.length + w.length + b.length) :
    Covers nesting ⟨.numeral k digits (.numeral k digits), level, outer⟩
      (u ++ w ++ b ++ digits.map Digit.toChar)
  | operator {sum : Option (Pending Tree)} {outer : List (Level Tree)} {u w v b : List Char}
    {t : Tree} (opens : Opens nesting outer u)
    (sums : Waits (nesting - outer.length) .additive u.length sum w)
    (term : Spans (nesting - outer.length) .term (u.length + w.length) v t)
    (blank : IsBlank b) :
    Covers nesting ⟨.operator t, ⟨sum, none⟩, outer⟩ (u ++ w ++ v ++ b)

/-! ### Blanks -/

theorem isBlank_nil : IsBlank [] := by
  intro c hc
  cases hc

theorem isBlank_concat {b : List Char} (hb : IsBlank b) {c : Char} (hc : Text.isBlank c = true) :
    IsBlank (b ++ [c]) := by
  intro d hd
  rcases List.mem_append.1 hd with hd | hd
  · exact hb d hd
  · rw [List.mem_singleton.1 hd]
    exact hc

/-! ### Operands of waiting operators -/

/-- The right operand completes a chain. -/
theorem Waits.spans {limit k : Nat} {p : Precedence} {pending : Option (Pending Tree)}
    {w v : List Char} {t : Tree} (h : Waits limit p k pending w)
    (hv : Spans limit p.operand (k + w.length) v t) :
    Spans limit p.chain k (w ++ v) (Pending.tree pending t) := by
  cases h with
  | none =>
    refine ⟨?_, hv.nesting_le⟩
    cases p
    · exact .term hv.derives
    · exact .factor hv.derives
  | @some w b c op l left blank operator =>
    have hright : Derives p.operand (k + w.length + b.length + 1) v t := by
      have hderives := hv.derives
      simp only [List.length_append, List.length_singleton, ← Nat.add_assoc] at hderives
      exact hderives
    refine ⟨?_, Nat.max_le.2 ⟨left.nesting_le, hv.nesting_le⟩⟩
    rw [List.append_assoc (w ++ b)]
    cases p
    · exact .sum left.derives blank operator hright
    · exact .product left.derives blank operator hright

/-- A factor ends the term it belongs to. -/
theorem InLevel.spans {limit k : Nat} {level : Level Tree} {w v : List Char} {t : Tree}
    (h : InLevel limit k level w) (hv : Spans limit .factor (k + w.length) v t) :
    ∃ x y, w = x ++ y ∧ Waits limit .additive k level.sum x ∧
      Spans limit .term (k + x.length) (y ++ v) (Pending.tree level.product t) := by
  obtain ⟨sums, products⟩ := h
  rename_i x y
  refine ⟨x, y, rfl, sums, ?_⟩
  rw [List.length_append, ← Nat.add_assoc] at hv
  exact products.spans (p := .multiplicative) hv

/-- A group is a factor, one level less deep than what it holds. -/
theorem spans_group {limit k : Nat} {b w e : List Char} {t : Tree} (hb : IsBlank b) (he : IsBlank e)
    (hpos : 0 < limit) (h : Spans (limit - 1) .expression (k + b.length + 1) w t) :
    Spans limit .factor k (b ++ '(' :: (w ++ e ++ [')'])) (.group t) := by
  refine ⟨.group hb he h.derives, ?_⟩
  have := h.nesting_le
  show t.nesting + 1 ≤ limit
  omega

/-- A closing parenthesis makes a factor of the innermost group, in the group around it. -/
theorem Opens.closes {nesting : Nat} {level : Level Tree} {outer : List (Level Tree)}
    {u v e : List Char} {t : Tree} (h : Opens nesting (level :: outer) u)
    (hv : Spans (nesting - (level :: outer).length) .expression u.length v t) (he : IsBlank e) :
    ∃ x w b, u = x ++ w ++ b ++ ['('] ∧ Opens nesting outer x ∧
      InLevel (nesting - outer.length) x.length level w ∧
      Spans (nesting - outer.length) .factor (x.length + w.length) (b ++ '(' :: (v ++ e ++ [')']))
        (.group t) := by
  cases h with
  | @group level outer x w b opens inLevel blank lt =>
    have hlimit : nesting - (level :: outer).length = nesting - outer.length - 1 := by
      rw [List.length_cons]
      omega
    have hplace : (x ++ w ++ b ++ ['(']).length = x.length + w.length + b.length + 1 := by
      simp only [List.length_append, List.length_singleton]
    rw [hlimit, hplace] at hv
    exact ⟨x, w, b, rfl, opens, inLevel, spans_group blank he (by omega) hv⟩

namespace Covers
open Reading
variable {nesting : Nat}

/-- After a factor, whatever ended it. -/
theorem factor {level : Level Tree} {outer : List (Level Tree)} {u w v b : List Char} {t : Tree}
    (opens : Opens nesting outer u) (inLevel : InLevel (nesting - outer.length) u.length level w)
    (hv : Spans (nesting - outer.length) .factor (u.length + w.length) v t) (blank : IsBlank b) :
    Covers nesting ⟨.operator (Pending.tree level.product t), ⟨level.sum, none⟩, outer⟩
      (u ++ w ++ v ++ b) := by
  obtain ⟨x, y, rfl, sums, term⟩ := inLevel.spans hv
  have h := Covers.operator opens sums term blank
  simp only [List.append_assoc] at h ⊢
  exact h

theorem goesOn {sum : Option (Pending Tree)} {outer : List (Level Tree)} {u w v b : List Char}
    {t : Tree} {k : Nat} {c : Char} {r : Reading Tree} (opens : Opens nesting outer u)
    (sums : Waits (nesting - outer.length) .additive u.length sum w)
    (term : Spans (nesting - outer.length) .term (u.length + w.length) v t) (blank : IsBlank b)
    (hk : k = (u ++ w ++ v ++ b).length) (h : GoesOn .trees k t sum outer c r) :
    Covers nesting r (u ++ w ++ v ++ b ++ [c]) := by
  simp only [List.length_append] at hk
  have hspans := sums.spans (p := .additive) term
  cases h with
  | blank hb =>
    rw [List.append_assoc _ b]
    exact .operator opens sums term (isBlank_concat blank hb)
  | @product _ _ op hm =>
    have hwaits : Waits (nesting - outer.length) .multiplicative (u.length + w.length)
        (some ⟨op, k, t⟩) (v ++ b ++ [c]) := by
      rw [hk]
      exact .some term blank hm
    have hcovers := Covers.operand opens ⟨sums, hwaits⟩ isBlank_nil
    simp only [List.append_assoc, List.append_nil] at hcovers ⊢
    exact hcovers
  | @sum _ _ op _ ha hw =>
    rw [join_trees] at hw
    cases hw
    have hwaits : Waits (nesting - outer.length) .additive u.length
        (some ⟨op, k, Pending.tree sum t⟩) (w ++ v ++ b ++ [c]) := by
      have hplace : k = u.length + (w ++ v).length + b.length := by
        rw [hk, List.length_append]
        omega
      rw [hplace]
      exact .some hspans blank ha
    have hcovers := Covers.operand opens ⟨hwaits, .none⟩ isBlank_nil
    simp only [List.append_assoc, List.append_nil] at hcovers ⊢
    exact hcovers
  | closing hw hx =>
    rw [join_trees] at hw hx
    cases hw
    cases hx
    obtain ⟨u', w', b', rfl, opens', inLevel', hgroup⟩ := opens.closes hspans blank
    have hcovers := factor opens' inLevel' hgroup isBlank_nil
    simp only [List.append_assoc, List.append_nil, List.cons_append, List.nil_append]
      at hcovers ⊢
    exact hcovers

/-- A numeral, with the blanks before it, is a factor. -/
theorem spans_numeral {limit j k : Nat} {b : List Char} {digits : List Digit} (hb : IsBlank b)
    (hd : digits ≠ []) (place : k = j + b.length) :
    Spans limit .factor j (b ++ digits.map Digit.toChar) (.numeral k digits) := by
  rw [place]
  exact ⟨.numeral hb (.number hd), Nat.zero_le _⟩

theorem start : Covers nesting Reading.start [] :=
  Covers.operand .whole ⟨.none, .none⟩ isBlank_nil

theorem step {r r' : Reading Tree} {text : List Char} {c : Char} (hr : Covers nesting r text)
    (h : r.step .trees nesting text.length c = .ok r') : Covers nesting r' (text ++ [c]) := by
  have hsteps := step_eq_ok_iff.1 h
  cases hr with
  | @operand level outer u w b opens inLevel blank =>
    cases hsteps with
    | blank hb =>
      rw [List.append_assoc _ b]
      exact .operand opens inLevel (isBlank_concat blank hb)
    | opening hroom =>
      have hcovers := Covers.operand (.group opens inLevel blank hroom)
        (InLevel.intro .none .none) isBlank_nil
      simp only [List.append_nil] at hcovers
      exact hcovers
    | @first _ _ _ d _ hd hv =>
      cases hv
      have hplace : (u ++ w ++ b).length = u.length + w.length + b.length := by
        simp only [List.length_append]
      have hcovers := Covers.numeral opens inLevel blank (List.cons_ne_nil d []) hplace
      rw [List.map_singleton, Digit.toChar_of_ofChar? hd] at hcovers
      exact hcovers
  | operator opens sums term blank =>
    cases hsteps with
    | afterFactor hnext => exact goesOn opens sums term blank rfl hnext
  | @numeral level outer u w b k digits opens inLevel blank some_digit place =>
    cases hsteps with
    | @digit _ _ _ _ _ _ _ d hd hw =>
      cases hw
      have hdigits : digits ++ [d] ≠ [] :=
        List.append_ne_nil_of_right_ne_nil _ (List.cons_ne_nil d [])
      have hcovers := Covers.numeral opens inLevel blank hdigits place
      rw [List.map_append, List.map_singleton, Digit.toChar_of_ofChar? hd, ← List.append_assoc]
        at hcovers
      exact hcovers
    | afterNumeral _ _ hw hnext =>
      rw [join_trees] at hw
      cases hw
      obtain ⟨x, y, rfl, sums, term⟩ := inLevel.spans (spans_numeral blank some_digit place)
      have hcovers := goesOn (b := []) opens sums term isBlank_nil
        (by simp only [List.append_assoc, List.append_nil]) hnext
      simp only [List.append_assoc, List.append_nil] at hcovers ⊢
      exact hcovers

theorem feed {r r' : Reading Tree} {text w : List Char} (hr : Covers nesting r text)
    (h : r.feed .trees nesting text.length w = .ok r') : Covers nesting r' (text ++ w) := by
  induction w generalizing r text with
  | nil =>
    cases h
    rw [List.append_nil]
    exact hr
  | cons c rest ih =>
    obtain ⟨s, hs, hrest⟩ := exists_of_bind_eq_ok h
    have hlength : text.length + 1 = (text ++ [c]).length := by simp
    rw [hlength] at hrest
    have hcovers := ih (hr.step hs) hrest
    rw [List.append_assoc] at hcovers
    exact hcovers

/-- What is left at the end of a text is its tree. -/
theorem finish {settings : Settings} {r : Reading Tree} {text : List Char} {k : Nat} {t : Tree}
    (hr : Covers settings.nesting r text) (h : r.finish .trees k = .ok t) :
    IsTree settings text t := by
  have hdone {sum : Option (Pending Tree)} {w v b : List Char} {t : Tree}
      (sums : Waits (settings.nesting - 0) .additive 0 sum w)
      (term : Spans (settings.nesting - 0) .term (0 + w.length) v t) (blank : IsBlank b) :
      IsTree settings (w ++ v ++ b) (Pending.tree sum t) := by
    have hspans := sums.spans (p := .additive) term
    exact ⟨⟨w ++ v, b, rfl, blank, hspans.derives⟩, hspans.nesting_le⟩
  cases hr with
  | operand => cases h
  | @operator sum outer u w v b t' opens sums term blank =>
    simp only [Reading.finish, join_trees, ok_bind] at h
    obtain ⟨rfl, rfl⟩ := closeEnd_eq_ok h
    cases opens
    exact hdone sums term blank
  | @numeral level outer u w b k' digits opens inLevel blank some_digit place =>
    simp only [Reading.finish, join_trees, ok_bind] at h
    obtain ⟨rfl, rfl⟩ := closeEnd_eq_ok h
    obtain ⟨x, y, rfl, sums, term⟩ := inLevel.spans (spans_numeral blank some_digit place)
    cases opens
    have htree := hdone sums term isBlank_nil
    simp only [List.append_assoc, List.append_nil, List.nil_append] at htree ⊢
    exact htree

end Covers

/-- **A tree that is read from a text is the text's tree.** -/
theorem isTree_of_run {settings : Settings} {text : List Char} {t : Tree}
    (h : Reading.start.run .trees settings.nesting 0 text = .ok t) : IsTree settings text t := by
  rw [Reading.run_eq_feed] at h
  obtain ⟨r, hfeed, hfinish⟩ := exists_of_bind_eq_ok h
  exact (Covers.start.feed hfeed).finish hfinish

end BaseThree
