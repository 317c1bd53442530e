import BaseThree.Proofs.Reading.Trees

/-! What is derived is read.

Where a rule begins, a reading that has a stretch of that rule before it comes out of it
with the stretch's tree in hand, whatever follows, as long as no digit does
(`readsOut_of_derives`). So the tree of an expression is the one that is read from it
(`run_of_derives`), and a text has at most one. -/
namespace BaseThree
open Grammar
open Evaluation (Rule)

/-- What stands behind a stretch does not carry on a numeral. -/
def NotDigit (rest : List Char) : Prop :=
  ∀ c, rest.head? = some c → Digit.ofChar? c = none ∧ isForeignDigit c = false

/-- What is in hand after a stretch of a rule: a sum may wait for the last term of an
expression, and everything else is one tree. -/
def Gives (level : Level Tree) (t : Tree) : Rule → Option (Pending Tree) → Tree → Prop
  | .expression, sum, v => Pending.tree sum v = t
  | _, sum, v => sum = level.sum ∧ v = Pending.tree level.product t

theorem notDigit_nil : NotDigit [] := by
  intro c hc
  cases hc

theorem notDigit_cons {c : Char} {rest : List Char}
    (h : Digit.ofChar? c = none ∧ isForeignDigit c = false) : NotDigit (c :: rest) := by
  intro d hd
  cases hd
  exact h

theorem notDigit_blanks {b rest : List Char} (hb : IsBlank b) (h : NotDigit rest) :
    NotDigit (b ++ rest) := by
  cases b with
  | nil => exact h
  | cons c b =>
    have hc := hb c (List.mem_cons_self ..)
    exact notDigit_cons ⟨Digit.ofChar?_of_blank hc, isForeignDigit_of_blank hc⟩

namespace Reading
variable {nesting : Nat}

/-- Blanks change nothing where a token may stand. -/
theorem run_blanks {α : Type} {M : Meaning α} {r : Reading α}
    (h : ∀ k c, Text.isBlank c = true → r.step M nesting k c = .ok r) {b : List Char}
    (hb : IsBlank b) (k : Nat) (rest : List Char) :
    r.run M nesting k (b ++ rest) = r.run M nesting (k + b.length) rest := by
  induction b generalizing k with
  | nil => rfl
  | cons c b ih =>
    have hc := hb c (List.mem_cons_self ..)
    rw [List.cons_append, run, h k c hc, ok_bind,
      ih (fun d hd => hb d (List.mem_cons_of_mem _ hd)), List.length_cons, Nat.add_assoc,
      Nat.add_comm 1]

theorem run_numeral (place : Nat) (digits more : List Digit) (level : Level Tree)
    (outer : List (Level Tree)) (k : Nat) (rest : List Char) :
    run .trees nesting ⟨.numeral place digits (.numeral place digits), level, outer⟩ k
        (more.map Digit.toChar ++ rest) =
      run .trees nesting
        ⟨.numeral place (digits ++ more) (.numeral place (digits ++ more)), level, outer⟩
        (k + more.length) rest := by
  induction more generalizing digits k with
  | nil => rw [List.append_nil]; rfl
  | cons d more ih =>
    have hstep : step .trees nesting
        ⟨.numeral place digits (.numeral place digits), level, outer⟩ k d.toChar =
          .ok ⟨.numeral place (digits ++ [d]) (.numeral place (digits ++ [d])), level, outer⟩ := by
      simp only [step, Digit.ofChar?_toChar]
      rfl
    rw [List.map_cons, List.cons_append, run, hstep, ok_bind, ih, List.append_assoc,
      List.length_cons, Nat.add_assoc, Nat.add_comm 1]
    rfl

/-- A whole numeral. -/
theorem run_digits {digits : List Digit} (hd : digits ≠ []) (level : Level Tree)
    (outer : List (Level Tree)) (k : Nat) {rest : List Char} (hrest : NotDigit rest) :
    run .trees nesting ⟨.operand, level, outer⟩ k (digits.map Digit.toChar ++ rest) =
      run .trees nesting
        ⟨.operator (Pending.tree level.product (.numeral k digits)), ⟨level.sum, none⟩, outer⟩
        (k + digits.length) rest := by
  cases digits with
  | nil => exact absurd rfl hd
  | cons d more =>
    have hstep : step .trees nesting ⟨.operand, level, outer⟩ k d.toChar =
        .ok ⟨.numeral k [d] (.numeral k [d]), level, outer⟩ :=
      step_operand_digit (Digit.ofChar?_toChar d)
    rw [List.map_cons, List.cons_append, run, hstep, ok_bind, run_numeral, run_settle _ _ _ _ hrest]
    simp only [settle, join_trees, ok_bind, List.length_cons, List.cons_append, List.nil_append]
    rw [Nat.add_assoc, Nat.add_comm 1]

/-- A reading comes out of a stretch of a rule with the tree of the stretch in hand. -/
def ReadsOut (nesting : Nat) (r : Rule) (k : Nat) (w : List Char) (t : Tree) : Prop :=
  ∀ (level : Level Tree) (outer : List (Level Tree)), r.Fits level →
    outer.length + t.nesting ≤ nesting → ∃ sum v, Gives level t r sum v ∧
      ∀ rest, NotDigit rest →
        run .trees nesting ⟨.operand, level, outer⟩ k (w ++ rest) =
          run .trees nesting ⟨.operator v, ⟨sum, none⟩, outer⟩ (k + w.length) rest

theorem readsOut_group {k : Nat} {b w e : List Char} {t : Tree} (hb : IsBlank b) (he : IsBlank e)
    (h : ReadsOut nesting .expression (k + b.length + 1) w t) :
    ReadsOut nesting .factor k (b ++ '(' :: (w ++ e ++ [')'])) (.group t) := by
  intro level outer _ hn
  have hnest : outer.length + (t.nesting + 1) ≤ nesting := hn
  obtain ⟨sum, v, hv, hrun⟩ := h {} (level :: outer) rfl (by rw [List.length_cons]; omega)
  refine ⟨level.sum, _, ⟨rfl, rfl⟩, fun rest _ => ?_⟩
  have hclosing : NotDigit (e ++ ')' :: rest) := notDigit_blanks he (notDigit_cons ⟨rfl, by decide⟩)
  have hclose (k : Nat) : step .trees nesting ⟨.operator v, ⟨sum, none⟩, level :: outer⟩ k ')' =
      .ok ⟨.operator (Pending.tree level.product (.group t)), ⟨level.sum, none⟩, outer⟩ := by
    have hjoin : join .trees sum v = .ok t := by
      rw [join_trees]
      exact congrArg Except.ok hv
    exact step_eq_ok_iff.2 (.afterFactor (.closing hjoin (join_trees _ _)))
  have hsplit : b ++ '(' :: (w ++ e ++ [')']) ++ rest = b ++ '(' :: (w ++ (e ++ ')' :: rest)) := by
    simp only [List.append_assoc, List.cons_append, List.nil_append]
  rw [hsplit, run_blanks (fun _ _ hc => step_operand_blank hc) hb, run,
    step_operand_open (by omega), ok_bind, hrun _ hclosing,
    run_blanks (fun _ _ hc => step_operator_blank rfl hc) he, run, hclose, ok_bind]
  congr 1
  simp only [List.length_append, List.length_cons, List.length_nil]
  omega

/-- An operator between two stretches. -/
theorem readsOut_operation {p : Precedence} {k : Nat} {c : Char} {b w v : List Char} {l r : Tree}
    {op : Operator} (hl : ReadsOut nesting p.chain k w l) (hb : IsBlank b)
    (hop : p.operator? c = some op)
    (hr : ReadsOut nesting p.operand (k + w.length + b.length + 1) v r) :
    ReadsOut nesting p.chain k (w ++ b ++ c :: v)
      (.operation op (k + w.length + b.length) l r) := by
  intro level outer hfits hn
  have hnest : outer.length + max l.nesting r.nesting ≤ nesting := hn
  obtain ⟨sum, u, hu, hleft⟩ := hl level outer hfits (by omega)
  obtain ⟨sum', x, hx, hright⟩ := hr (p.wait level ⟨op, k + w.length + b.length, l⟩) outer
    (Precedence.fits_wait _ _) (by omega)
  have hstep : step .trees nesting ⟨.operator u, ⟨sum, none⟩, outer⟩ (k + w.length + b.length) c =
      .ok ⟨.operand, p.wait level ⟨op, k + w.length + b.length, l⟩, outer⟩ := by
    cases p with
    | additive =>
      simp only [step, readOperator_additive hop, join_trees, ok_bind]
      rw [show Pending.tree sum u = l from hu]
      rfl
    | multiplicative =>
      have hproduct : level.product = none := hfits
      obtain ⟨rfl, rfl⟩ := hu
      rw [hproduct]
      exact readOperator_multiplicative hop
  have hgives : Gives level (.operation op (k + w.length + b.length) l r) p.chain sum' x := by
    cases p with
    | additive =>
      obtain ⟨rfl, rfl⟩ := hx
      rfl
    | multiplicative =>
      have hproduct : level.product = none := hfits
      obtain ⟨rfl, rfl⟩ := hx
      refine ⟨rfl, ?_⟩
      rw [hproduct]
      rfl
  refine ⟨sum', x, hgives, fun rest hrest => ?_⟩
  have hmiddle : NotDigit (b ++ c :: (v ++ rest)) :=
    notDigit_blanks hb (notDigit_cons (Precedence.not_digit_of_operator? hop))
  have hsplit : w ++ b ++ c :: v ++ rest = w ++ (b ++ c :: (v ++ rest)) := by
    simp only [List.append_assoc, List.cons_append]
  rw [hsplit, hleft _ hmiddle, run_blanks (fun _ _ hc => step_operator_blank rfl hc) hb, run, hstep,
    ok_bind, hright _ hrest]
  congr 1
  simp only [List.length_append, List.length_cons]
  omega

theorem readsOut_of_derives {r : Rule} {k : Nat} {w : List Char} {t : Tree} (h : Derives r k w t) :
    ReadsOut nesting r k w t := by
  induction h with
  | @number k digits some_digit =>
    intro level outer _ _
    refine ⟨_, _, ⟨rfl, rfl⟩, fun rest hrest => ?_⟩
    rw [run_digits some_digit _ _ _ hrest, List.length_map]
  | @numeral k b w t blank number ih =>
    intro level outer _ hn
    obtain ⟨sum, v, hv, hrun⟩ := ih level outer trivial hn
    refine ⟨sum, v, hv, fun rest hrest => ?_⟩
    rw [List.append_assoc, run_blanks (fun _ _ hc => step_operand_blank hc) blank, hrun _ hrest,
      List.length_append, Nat.add_assoc]
  | group blank blank_end inner ih => exact readsOut_group blank blank_end ih
  | factor first ih =>
    intro level outer _ hn
    exact ih level outer trivial hn
  | product left blank operator right ihl ihr =>
    exact readsOut_operation (p := .multiplicative) ihl blank operator ihr
  | term first ih =>
    intro level outer hfits hn
    have hproduct : level.product = none := Precedence.product_of_fits (p := .additive) hfits
    obtain ⟨sum, v, ⟨rfl, rfl⟩, hrun⟩ := ih level outer hproduct hn
    refine ⟨level.sum, _, ?_, hrun⟩
    cases hfits
    rfl
  | sum left blank operator right ihl ihr =>
    exact readsOut_operation (p := .additive) ihl blank operator ihr

end Reading

/-- **The tree of an expression is read from it**, wherever it stands. -/
theorem run_of_derives {nesting k : Nat} {w b : List Char} {t : Tree}
    (h : Derives .expression k w t) (blank : IsBlank b) (hn : t.nesting ≤ nesting) :
    Reading.start.run .trees nesting k (w ++ b) = .ok t := by
  have hreads : Reading.ReadsOut nesting .expression k w t := Reading.readsOut_of_derives h
  obtain ⟨sum, v, hv, hrun⟩ := hreads {} [] rfl (by simpa using hn)
  have hb : NotDigit (b ++ []) := notDigit_blanks blank notDigit_nil
  rw [List.append_nil] at hb
  have hend : Reading.run .trees nesting ⟨.operator v, ⟨sum, none⟩, []⟩ (k + w.length) b =
      .ok (Pending.tree sum v) := by
    have hstep (k : Nat) (c : Char) (hc : Text.isBlank c = true) :
        Reading.step .trees nesting ⟨.operator v, ⟨sum, none⟩, []⟩ k c =
          .ok ⟨.operator v, ⟨sum, none⟩, []⟩ := Reading.step_operator_blank rfl hc
    have hblanks := Reading.run_blanks hstep blank (k + w.length) []
    rw [List.append_nil] at hblanks
    rw [hblanks]
    simp only [Reading.run, Reading.finish, Reading.join_trees, ok_bind]
    rfl
  show Reading.run _ _ _ k (w ++ b) = _
  exact (hrun b hb).trans (hend.trans (congrArg Except.ok hv))

theorem run_of_isTree {settings : Settings} {text : List Char} {t : Tree}
    (h : IsTree settings text t) :
    Reading.start.run .trees settings.nesting 0 text = .ok t := by
  obtain ⟨⟨w, b, rfl, blank, derives⟩, hn⟩ := h
  exact run_of_derives derives blank hn

/-- No text has two trees. -/
theorem isTree_unique {settings : Settings} {text : List Char} {t t' : Tree}
    (h : IsTree settings text t) (h' : IsTree settings text t') : t = t' :=
  Except.ok.inj ((run_of_isTree h).symm.trans (run_of_isTree h'))

end BaseThree
