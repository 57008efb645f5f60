import Karel.Proofs.Layout.Description
import Karel.Proofs.Parse.Following
import Karel.Proofs.SourceText.Concatenation
import Karel.Proofs.Tree.Gaps

/-!
# Stray indentation

A line with code that follows a whole program has to be as wide as a block that may still be open.
Any other width opens a block that no header has announced, whether the line is further in than
the line above it or stands between two open blocks, and the program is rejected at that line.

## Main results

- `Grammar.Outlook.exists_statement_of_run_dedents` — what is awaited where blocks are closed
- `exists_lines_of_ended` — the lines of a text that ends in a line feed
- `toList_of_width_notMem` — the tokens of a text with a line at a width that is not open
- `parseProgram_of_stray_indent` — such a text is rejected at that line
-/

namespace Karel

namespace Grammar.Outlook

variable {capabilities : Capabilities} {outlook next : Outlook} {tokens : List Token}

/-- Tokens the last of which does not show lead to the beginning of a line. -/
theorem atLineStart_of_run (hstart : outlook.AtLineStart)
    (hlast : ∀ last ∈ tokens.getLast?, last.kind.isVisible = false)
    (h : outlook.run capabilities tokens = .ok next) : next.AtLineStart := by
  rcases List.eq_nil_or_concat tokens with rfl | ⟨front, last, rfl⟩
  · obtain rfl := Except.ok.inj h
    exact hstart
  · rw [List.concat_eq_append] at h hlast
    obtain ⟨reached, -, hreached⟩ := exists_of_run_append h
    obtain ⟨behind, hstep, hbehind⟩ := exists_of_run_cons hreached
    obtain rfl := Except.ok.inj hbehind
    exact atLineStart_of_step (hlast last (by simp)) hstep

/-- At the beginning of a line, only where a statement is awaited may a block be closed. -/
theorem exists_statement_of_step {kind : TokenKind} (hstart : outlook.AtLineStart)
    (hcloses : kind.closesBlock = true) (h : outlook.step capabilities kind = .ok next) :
    ∃ bodies arms, outlook = ⟨bodies, .statement arms⟩ := by
  obtain ⟨bodies, awaited⟩ := outlook
  cases awaited with
  | statement arms => exact ⟨bodies, arms, rfl⟩
  | indent arms =>
    cases kind with
    | dedent | eof => cases h
    | _ => cases hcloses
  | nothing => cases h
  | _ => cases hstart

/-- Where the input may end once some blocks are closed, a statement may follow in any of them. -/
theorem exists_statement_of_run_dedents {count closed line last : Nat}
    (hstart : outlook.AtLineStart)
    (h : outlook.run capabilities
      (List.replicate count ⟨.dedent, line⟩ ++ [Token.endOfInput last]) = .ok next)
    (hclosed : closed ≤ count) (index : Nat) :
    ∃ bodies arms, outlook.run capabilities (List.replicate closed ⟨.dedent, index⟩) =
      .ok ⟨bodies, .statement arms⟩ := by
  induction closed generalizing outlook count with
  | zero =>
    have hfirst : ∃ kind behind, kind.closesBlock = true ∧
        outlook.step capabilities kind = .ok behind := by
      cases count with
      | zero =>
        obtain ⟨behind, hstep, -⟩ := exists_of_run_cons h
        exact ⟨_, behind, rfl, hstep⟩
      | succ count =>
        obtain ⟨behind, hstep, -⟩ := exists_of_run_cons h
        exact ⟨_, behind, rfl, hstep⟩
    obtain ⟨kind, behind, hcloses, hstep⟩ := hfirst
    obtain ⟨bodies, arms, rfl⟩ := exists_statement_of_step hstart hcloses hstep
    exact ⟨bodies, arms, rfl⟩
  | succ closed ih =>
    obtain ⟨others, rfl⟩ := Nat.exists_eq_add_of_lt hclosed
    rw [List.replicate_succ, List.cons_append] at h
    obtain ⟨behind, hstep, hbehind⟩ := exists_of_run_cons h
    have hagain : outlook.step capabilities (⟨.dedent, index⟩ : Token).kind = .ok behind := hstep
    rw [List.replicate_succ, run_cons_of_ok hagain]
    exact ih (atLineStart_of_step rfl hstep) hbehind (Nat.le_add_right closed others)

end Grammar.Outlook

open Grammar RawLine

variable {capabilities : Capabilities} {source first text rest : String} {block : Block}
  {above below : List (List UInt8)} {line : List UInt8}

-- ════════════════════════════════════════════════════════════════════════
-- Lines
-- ════════════════════════════════════════════════════════════════════════

/-- What follows a text that is empty or ends in a line feed begins on a line of its own. The lines
    above it have the tokens of the text, up to those that end the input. -/
theorem exists_lines_of_ended (hended : first = "" ∨ ∃ text, first = text ++ "\n") :
    ∃ above, (∀ second, byteLines (first ++ second) = above ++ byteLines second) ∧
      above.length = first.toList.count '\n' ∧ widths above = widths (byteLines first) ∧
      (TokenStream.ofSource first).toList =
        endedTokens Margin.initial 0 (above.map toLine) ++
          (List.replicate (Margin.initial.below (above.map toLine)).levels.length
              ⟨.dedent, above.length⟩ ++ [Token.endOfInput above.length]) := by
  rcases hended with rfl | ⟨text, rfl⟩
  · refine ⟨[], fun second => ?_, rfl, rfl, rfl⟩
    rw [String.empty_append, List.nil_append]
  · have hlines := sourceLines_eq_map text
    have hlength : (sourceLines text).length = (byteLines text).length := by
      rw [hlines, List.length_map]
    have hbytes : byteLines (text ++ "\n") = byteLines text ++ [[]] := by
      have happend := byteLines_append_newline text ""
      rwa [String.append_empty] at happend
    refine ⟨byteLines text, byteLines_append_newline text, ?_, ?_, ?_⟩
    · rw [← hlength, length_sourceLines]
    · rw [hbytes, Margin.Tracks.widths_concat_of_not rfl]
    · rw [toList_ended, hlength, hlines]

theorem exists_lines_of_line (hline : byteLines text = [line])
    (hrest : rest = "" ∨ ∃ more, rest = "\n" ++ more) :
    ∃ below, byteLines (text ++ rest) = line :: below := by
  rcases hrest with rfl | ⟨more, rfl⟩
  · exact ⟨[], by rw [String.append_empty, hline]⟩
  · refine ⟨byteLines more, ?_⟩
    rw [← String.append_assoc, byteLines_append_newline, hline]
    rfl

-- ════════════════════════════════════════════════════════════════════════
-- Tokens
-- ════════════════════════════════════════════════════════════════════════

/-- A line that opens a block closes some blocks, or none, and then opens that one. -/
theorem Margin.exists_tokens_of_opens {margin : Margin} {width : Nat}
    (hopens : opens margin.levels width = true) (index : Nat) (terminated : Bool)
    (pieces : List Lexeme) :
    ∃ more, margin.tokens index terminated (.code width pieces) =
      List.replicate (closed margin.levels width).length ⟨.dedent, index⟩ ++
        ⟨.indent, index⟩ :: more := by
  rw [tokens_code, if_pos hopens]
  simp only [List.append_assoc, List.cons_append, List.nil_append]
  exact ⟨_, rfl⟩

/-- A line at a width that is not open opens a block. -/
theorem toList_of_width_notMem (hlines : byteLines source = above ++ line :: below)
    (hlogical : isLogical line = true) (hwidth : width line ∉ openWidths (widths above)) :
    ∃ closed more, closed ≤ (Margin.initial.below (above.map toLine)).levels.length ∧
      (TokenStream.ofSource source).toList =
        endedTokens Margin.initial 0 (above.map toLine) ++
          (List.replicate closed ⟨.dedent, above.length⟩ ++
            ⟨.indent, above.length⟩ :: more) := by
  have hsource : sourceLines source = above.map toLine ++ (line :: below).map toLine := by
    rw [sourceLines_eq_map, hlines, List.map_append]
  obtain ⟨pieces, hcode, -⟩ := toLine_of_isLogical hlogical
  have htracks := Margin.Tracks.initial.below above
  rw [List.nil_append] at htracks
  rw [toList_of_sourceLines_append hsource (by simp), List.length_map, List.map_cons, hcode]
  generalize Margin.initial.below (above.map toLine) = margin at htracks
  obtain ⟨terminated, behind, hscan⟩ :=
    exists_scanLines_eq above.length (.code (width line) pieces) (below.map toLine)
  have hopens := (htracks.stack.opens_iff (width line)).mpr hwidth
  obtain ⟨more, hmore⟩ := Margin.exists_tokens_of_opens hopens above.length terminated pieces
  rw [hscan, hmore]
  simp only [List.append_assoc, List.cons_append]
  exact ⟨_, _, (List.takeWhile_prefix _).length_le, rfl⟩

-- ════════════════════════════════════════════════════════════════════════
-- Programs
-- ════════════════════════════════════════════════════════════════════════

/-- A line of code behind a whole program is rejected if it is at a width that is not open there,
    that is, neither zero nor the least width of the last few lines. What follows the line does not
    matter. -/
theorem parseProgram_of_stray_indent (hended : first = "" ∨ ∃ text, first = text ++ "\n")
    (hfirst : parseProgram capabilities first = .ok block) (hline : byteLines text = [line])
    (hlogical : isLogical line = true)
    (hwidth : width line ∉ openWidths (widths (byteLines first)))
    (hrest : rest = "" ∨ ∃ more, rest = "\n" ++ more) :
    ∃ error, parseProgram capabilities (first ++ text ++ rest) = .error error ∧
      error.message = "Unexpected indent." ∧ error.line = first.toList.count '\n' + 1 := by
  obtain ⟨above, habove, hlength, hwidths, htokens⟩ := exists_lines_of_ended hended
  obtain ⟨below, hbelow⟩ := exists_lines_of_line hline hrest
  have hlines : byteLines (first ++ text ++ rest) = above ++ line :: below := by
    rw [String.append_assoc, habove, hbelow]
  rw [← hwidths] at hwidth
  obtain ⟨closed, more, hclosed, hstray⟩ := toList_of_width_notMem hlines hlogical hwidth
  have hrun := Parse.run_toList capabilities first
  rw [hfirst, htokens] at hrun
  obtain ⟨reached, hreached, hend⟩ := Outlook.exists_of_run_append hrun
  have hinitial : Outlook.start.AtLineStart := trivial
  have hstart : reached.AtLineStart := by
    refine Outlook.atLineStart_of_run hinitial (fun last hlast => ?_) hreached
    rw [kind_getLast?_endedTokens hlast]
    rfl
  obtain ⟨bodies, arms, hdedents⟩ :=
    Outlook.exists_statement_of_run_dedents hstart hend hclosed above.length
  refine ⟨{ fault := .unexpectedIndent, found := ⟨.indent, above.length⟩ }, ?_, rfl, ?_⟩
  · rw [← Parse.run_toList_eq_error_iff, hstray, Outlook.run_append hreached,
      Outlook.run_append hdedents]
    exact Outlook.run_cons_of_error rfl
  · rw [ParseError.line, hlength]

/-- Below the body of an `if`, a blank line and a comment, a line stands between the width of the
    body and that of the `if`. -/
theorem parseProgram_of_stray_indent_below_if :
    parseProgram Capabilities.standard "do 2:\n  if facing_east:\n      move\n\n# no\n" =
      .ok [.doTimes .repetition 2
        [.ifElse (.condition "facing_east") [.command (.command "move") 2] .done 1] 0] ∧
    RawLine.width [32, 32, 32, 9, 106, 117, 109, 112] ∉
      openWidths (RawLine.widths
        (byteLines "do 2:\n  if facing_east:\n      move\n\n# no\n")) ∧
    ∃ error, parseProgram Capabilities.standard
        ("do 2:\n  if facing_east:\n      move\n\n# no\n" ++ "   \tjump" ++ "\n  else:\n") =
        .error error ∧
      error.message = "Unexpected indent." ∧ error.line = 6 := by
  have hfirst : parseProgram Capabilities.standard
      "do 2:\n  if facing_east:\n      move\n\n# no\n" =
        .ok [.doTimes .repetition 2
          [.ifElse (.condition "facing_east") [.command (.command "move") 2] .done 1] 0] := rfl
  have hended : ∃ text, "do 2:\n  if facing_east:\n      move\n\n# no\n" = text ++ "\n" :=
    ⟨"do 2:\n  if facing_east:\n      move\n\n# no", rfl⟩
  have hline : byteLines "   \tjump" = [[32, 32, 32, 9, 106, 117, 109, 112]] := by decide
  have hwidth : RawLine.width [32, 32, 32, 9, 106, 117, 109, 112] ∉
      openWidths (RawLine.widths
        (byteLines "do 2:\n  if facing_east:\n      move\n\n# no\n")) := by decide
  exact ⟨hfirst, hwidth, parseProgram_of_stray_indent (.inr hended) hfirst hline rfl hwidth
    (.inr ⟨"  else:\n", rfl⟩)⟩

end Karel
