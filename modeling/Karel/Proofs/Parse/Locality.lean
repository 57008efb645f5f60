import Karel.Proofs.Layout.Cuts
import Karel.Proofs.Layout.RawLine
import Karel.Proofs.Parse.Following

/-!
# What an error depends on

An error depends on the text up to the end of its own line and on nothing behind. The tokens of the
lines up to there are the same whatever follows, one of them is the token at fault, and the parser
does not look behind that token.

## Main results

- `parseProgram_of_take_byteLines_eq` — texts that are the same up to the line of an error have the
  same error
-/

namespace Karel

open Grammar

variable {capabilities : Capabilities} {source other : String} {error : ParseError}

/-- An error on a line above a cut is a fault of the tokens above the cut alone. -/
theorem run_endedTokens_of_line_lt {above below : List Line}
    (hlines : sourceLines source = above ++ below) (hbelow : below ≠ [])
    (hline : error.found.line < above.length)
    (h : parseProgram capabilities source = .error error) :
    Outlook.start.run capabilities (endedTokens Margin.initial 0 above) = .error error := by
  have hrun := Parse.run_toList_eq_error_iff.mpr h
  rw [toList_of_sourceLines_append hlines hbelow] at hrun
  cases habove : Outlook.start.run capabilities (endedTokens Margin.initial 0 above) with
  | error first =>
    rw [Outlook.run_append_of_error habove] at hrun
    exact hrun
  | ok reached =>
    rw [Outlook.run_append habove] at hrun
    obtain ⟨front, behind, -, htokens, -, -⟩ := Outlook.exists_of_run_eq_error hrun
    have hmem := List.mem_append_right front (List.mem_cons_self (a := error.found) (l := behind))
    rw [← htokens] at hmem
    have hbelowLine := le_line_of_mem_behind (Nat.le_add_right _ _) hmem
    omega

/-- The lines of a source text above a cut, and those below it. -/
theorem sourceLines_eq_take_append {count : Nat} (h : count < (byteLines source).length) :
    ∃ below, sourceLines source = ((byteLines source).take count).map RawLine.toLine ++ below ∧
      below ≠ [] := by
  refine ⟨((byteLines source).drop count).map RawLine.toLine, ?_, ?_⟩
  · rw [sourceLines_eq_map, ← List.map_append, List.take_append_drop]
  · intro hnil
    have hlength := congrArg List.length hnil
    simp only [List.length_map, List.length_drop, List.length_nil] at hlength
    omega

/-- What follows the line of an error does not matter: a text with the same lines up to that one,
    each of them ended, has the same error. -/
theorem parseProgram_of_take_byteLines_eq
    (h : parseProgram capabilities source = .error error)
    (hsource : error.line < (byteLines source).length)
    (hother : error.line < (byteLines other).length)
    (hsame : (byteLines other).take error.line = (byteLines source).take error.line) :
    parseProgram capabilities other = .error error := by
  obtain ⟨below, hbelow, hne⟩ := sourceLines_eq_take_append hsource
  obtain ⟨below', hbelow', hne'⟩ := sourceLines_eq_take_append hother
  have hline : error.found.line <
      (((byteLines source).take error.line).map RawLine.toLine).length := by
    rw [List.length_map, List.length_take_of_le (Nat.le_of_lt hsource)]
    exact Nat.lt_succ_self error.found.line
  have habove := run_endedTokens_of_line_lt hbelow hne hline h
  refine Parse.run_toList_eq_error_iff.mp ?_
  rw [toList_of_sourceLines_append hbelow' hne', hsame]
  exact Outlook.run_append_of_error habove _

/-- An inconsistent dedent is reported alike whether a blank line and a program follow it or a
    header that lacks its body. -/
theorem parseProgram_of_same_inconsistent_dedent :
    parseProgram Capabilities.standard "do 2:\n    move\n  move\n\nmove" =
      .error { fault := .unexpectedIndent, found := ⟨.indent, 2⟩ } ∧
    3 < (byteLines "do 2:\n    move\n  move\n\nmove").length ∧
    3 < (byteLines "do 2:\n    move\n  move\nelse:").length ∧
    (byteLines "do 2:\n    move\n  move\nelse:").take 3 =
      (byteLines "do 2:\n    move\n  move\n\nmove").take 3 ∧
    parseProgram Capabilities.standard "do 2:\n    move\n  move\nelse:" =
      .error { fault := .unexpectedIndent, found := ⟨.indent, 2⟩ } := by
  have hparse : parseProgram Capabilities.standard "do 2:\n    move\n  move\n\nmove" =
      .error { fault := .unexpectedIndent, found := ⟨.indent, 2⟩ } := rfl
  have hsource : 3 < (byteLines "do 2:\n    move\n  move\n\nmove").length := by decide
  have hother : 3 < (byteLines "do 2:\n    move\n  move\nelse:").length := by decide
  have hsame : (byteLines "do 2:\n    move\n  move\nelse:").take 3 =
      (byteLines "do 2:\n    move\n  move\n\nmove").take 3 := by decide
  exact ⟨hparse, hsource, hother, hsame,
    parseProgram_of_take_byteLines_eq hparse hsource hother hsame⟩

end Karel
