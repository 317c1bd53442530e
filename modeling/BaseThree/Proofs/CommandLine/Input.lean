import BaseThree.Proofs.CommandLine.Answer

/-! One input, given in two ways.

A line of input and an argument with the same text are one program: the answer is the same, and
nothing that stands after the line, or in the input of a run that has its expression from its
arguments, has any part in it. -/
namespace BaseThree.CommandLine

/-- A line, any number of carriage returns and a line feed or nothing more: that is the line. -/
theorem firstLine_ofList {line : List Char} (hfeed : '\n' ∉ line)
    (hlast : line.getLast? ≠ some '\r') (returns : Nat) {rest : List Char}
    (hrest : rest.head?.all (· == '\n') = true) :
    firstLine (String.ofList (line ++ List.replicate returns '\r' ++ rest)) =
      String.ofList line := by
  rw [firstLine_eq_iff, String.toList_ofList, String.toList_ofList]
  exact ⟨hfeed, hlast, returns, rest, rfl, hrest⟩

/-- The input is not read when there is an expression among the arguments. -/
theorem run_of_expression {arguments : List String} {request : Request}
    (hrequest : Request.ofTexts arguments = .ok request) (hsome : request.expression ≠ none)
    (stdin other : String) : run arguments stdin = run arguments other := by
  obtain ⟨text, hexpression⟩ := Option.ne_none_iff_exists'.mp hsome
  have htext (input : String) : request.text input = text := by
    rw [Request.text, hexpression, Option.getD_some]
  unfold run
  rw [hrequest]
  simp only [htext]

/-- **A line of input and an argument are answered alike**, whatever ends the line, whatever follows
it, and whatever the input is when there is an argument. -/
theorem run_line_or_argument (groups : List OptionGroup) (line : List Char) (hfeed : '\n' ∉ line)
    (hlast : line.getLast? ≠ some '\r') :
    (∃ answer : Report,
      (∀ (returns : Nat) (rest : List Char), run (words groups)
        (String.ofList (line ++ List.replicate returns '\r' ++ '\n' :: rest)) = .ok answer) ∧
      (∀ returns : Nat, run (words groups)
        (String.ofList (line ++ List.replicate returns '\r')) = .ok answer) ∧
      (∀ stdin : String, run (words groups ++ ["--", String.ofList line]) stdin = .ok answer) ∧
      (line.head? ≠ some '-' →
        ∀ stdin : String, run (words groups ++ [String.ofList line]) stdin = .ok answer)) ∧
    ∀ (arguments : List String) (request : Request), Request.ofTexts arguments = .ok request →
      request.expression ≠ none →
      ∀ stdin other : String, run arguments stdin = run arguments other := by
  obtain ⟨answer, -, hrun⟩ := exists_report groups (String.ofList line)
  have hoptions := Request.ofTexts_options groups
  refine ⟨⟨answer, fun returns rest => ?_, fun returns => ?_, fun stdin => ?_,
    fun hhead stdin => ?_⟩, fun _ _ => run_of_expression⟩
  · exact hrun _ none _ hoptions (firstLine_ofList hfeed hlast returns rfl)
  · have hline : firstLine (String.ofList (line ++ List.replicate returns '\r' ++ [])) =
        String.ofList line := firstLine_ofList hfeed hlast returns rfl
    rw [List.append_nil] at hline
    exact hrun _ none _ hoptions hline
  · exact hrun _ (some (String.ofList line)) stdin
      (Request.ofTexts_separated groups (String.ofList line)) rfl
  · have hplain : (String.ofList line).toList.head? ≠ some '-' := by
      rw [String.toList_ofList]
      exact hhead
    exact hrun _ (some (String.ofList line)) stdin
      (Request.ofTexts_options_concat groups hplain) rfl

/-- A line with a sign in front cannot be an argument without the separator. -/
theorem run_line_with_sign :
    '\n' ∉ ['-', '1'] ∧ ['-', '1'].getLast? ≠ some '\r' ∧
    run ["-v"] "-1\r\r\n2" = run ["-v", "--", "-1"] "2" := by
  have hfeed : '\n' ∉ ['-', '1'] := by decide
  have hlast : ['-', '1'].getLast? ≠ some '\r' := by decide
  obtain ⟨⟨answer, hfed, -, hseparated, -⟩, -⟩ :=
    run_line_or_argument [.verbose false] ['-', '1'] hfeed hlast
  exact ⟨hfeed, hlast, (hfed 2 ['2']).trans (hseparated "2").symm⟩

end BaseThree.CommandLine
