import Karel.Proofs.Layout.Insertion
import Karel.Proofs.Parse.Following
import Karel.Proofs.Tree.Gaps

/-!
# Blank lines

A blank line between two lines of a text means nothing. It moves the lines below it, and it may put
a gap in front of the next line with code, which changes neither the tree nor the fault.

## Main results

- `gapped_scanLines` — the tokens of lines below a blank line
- `exists_gapped_of_insertIdx` — the tokens of a text with a blank line put in
- `parseProgram_insertIdx_white` — the program, or the error, of such a text
-/

namespace Karel

open Grammar

-- ════════════════════════════════════════════════════════════════════════
-- Tokens
-- ════════════════════════════════════════════════════════════════════════

variable {levels : List Nat} {margin : Margin} {index last : Nat} {lines : List Line}
  {token : Token} {tokens : List Token}

theorem Margin.layoutTokens_spaced (levels : List Nat) (index width : Nat) :
    Margin.layoutTokens ⟨levels, .spaced⟩ index width =
      Margin.layoutTokens ⟨levels, .packed⟩ index width ++ [⟨.newline, index⟩] := by
  simp [layoutTokens]

/-- A gap may stand in front of tokens that are all on its line and open no block. -/
theorem gapped_newline_append (hne : tokens ≠ [])
    (htokens : ∀ token ∈ tokens, token.kind ≠ .indent ∧ token.line = index) (more : List Token) :
    Gapped true (tokens ++ more) (⟨.newline, index⟩ :: (tokens ++ more)) := by
  obtain ⟨token, others, rfl⟩ := List.exists_cons_of_ne_nil hne
  obtain ⟨hlevel, rfl⟩ := htokens token List.mem_cons_self
  exact .gap hlevel (.refl false _)

theorem kind_ne_indent_of_mem_textTokens {pieces : List Lexeme}
    (h : token ∈ textTokens index pieces) : token.kind ≠ .indent ∧ token.line = index := by
  obtain ⟨hvisible, hline⟩ := isVisible_of_mem_textTokens h
  refine ⟨fun hkind => ?_, hline⟩
  rw [hkind] at hvisible
  cases hvisible

/-- Above a line with code, blank lines put a gap in front of its text, behind the tokens that close
    and open blocks. -/
theorem Gapped.code {width : Nat} {terminated : Bool} {pieces : List Lexeme}
    {behind more : List Token}
    (hrest : textTokens index pieces ++
      ((if terminated then [⟨.newline, index⟩] else []) ++ behind) = tokens ++ more)
    (hne : tokens ≠ []) (htokens : ∀ token ∈ tokens, token.kind ≠ .indent ∧ token.line = index) :
    Gapped true
      (Margin.tokens ⟨levels, .packed⟩ index terminated (.code width pieces) ++ behind)
      (Margin.tokens ⟨levels, .spaced⟩ index terminated (.code width pieces) ++ behind) := by
  have hlayout : ∀ last ∈ (Margin.layoutTokens ⟨levels, .packed⟩ index width).getLast?,
      last.kind.isVisible = false :=
    fun last hlast => Margin.isVisible_of_mem_layoutTokens (List.mem_of_getLast? hlast)
  rw [Margin.tokens_code_eq_layoutTokens_append, Margin.tokens_code_eq_layoutTokens_append,
    Margin.layoutTokens_spaced]
  simp only [List.append_assoc, hrest]
  exact (gapped_newline_append hne htokens more).append _ hlayout fun _ => rfl

theorem gapped_scanLines_packed (hlast : last = index + (lines.length - 1)) :
    Gapped true (scanLines ⟨levels, .packed⟩ index lines ++ [Token.endOfInput last])
      (scanLines ⟨levels, .spaced⟩ index lines ++ [Token.endOfInput last]) := by
  -- up to the first line with code or the end there are no tokens
  induction lines generalizing index with
  | nil => exact .refl true _
  | cons line lines ih =>
    cases line with
    | blank => cases lines <;> exact .refl true _
    | comment =>
      cases lines with
      | nil => exact .refl true _
      | cons next more =>
        refine ih ?_
        simp only [List.length_cons] at hlast ⊢
        omega
    | code width pieces =>
      cases lines with
      | nil =>
        obtain rfl : last = index := hlast
        have hends : ∀ token ∈ textTokens last pieces ++
            ((Margin.after ⟨levels, .packed⟩ (.code width pieces)).closing last ++
              [Token.endOfInput last]), token.kind ≠ .indent ∧ token.line = last := by
          intro token hmem
          rw [List.mem_append, List.mem_append, List.mem_singleton] at hmem
          rcases hmem with hmem | hmem | rfl
          · exact kind_ne_indent_of_mem_textTokens hmem
          · obtain ⟨level, -, rfl⟩ := List.mem_map.mp hmem
            exact ⟨by simp, rfl⟩
          · exact ⟨by simp [Token.endOfInput], rfl⟩
        rw [scanLines, scanLines, List.append_assoc, List.append_assoc]
        exact Gapped.code (List.append_nil _).symm (by simp) hends
      | cons next more =>
        have hends : ∀ token ∈ textTokens index pieces ++ [⟨.newline, index⟩],
            token.kind ≠ .indent ∧ token.line = index := by
          intro token hmem
          rcases List.mem_append.mp hmem with hmem | hmem
          · exact kind_ne_indent_of_mem_textTokens hmem
          · rw [List.mem_singleton.mp hmem]
            exact ⟨by simp, rfl⟩
        rw [scanLines, scanLines, List.append_assoc, List.append_assoc]
        exact Gapped.code (List.append_assoc _ _ _).symm (by simp) hends

/-- Below a blank line there may be a gap in front of the first line with code. -/
theorem gapped_scanLines (margin : Margin) (hlast : last = index + (lines.length - 1)) :
    Gapped true (scanLines margin index lines ++ [Token.endOfInput last])
      (scanLines (margin.after .blank) index lines ++ [Token.endOfInput last]) := by
  obtain ⟨levels, spacing⟩ := margin
  cases spacing with
  | leading | spaced => exact .refl true _
  | packed => exact gapped_scanLines_packed hlast

-- ════════════════════════════════════════════════════════════════════════
-- Texts
-- ════════════════════════════════════════════════════════════════════════

theorem isBlank_of_all_isWhite {line : List UInt8} (h : line.all RawLine.isWhite = true) :
    RawLine.isBlank line = true := by
  rw [List.all_eq_true] at h
  rw [RawLine.isBlank, RawLine.withoutReturn, List.all_eq_true]
  split
  · exact fun byte hmem => h byte (List.dropLast_subset _ hmem)
  · exact h

variable {source other : String} {line : List UInt8}

/-- The tokens of a text with a blank line put in are those of the text itself, with a gap or
    without one, on the lines that they have then. -/
theorem exists_gapped_of_insertIdx (hindex : index < (byteLines source).length)
    (hwhite : line.all RawLine.isWhite = true)
    (hother : byteLines other = (byteLines source).insertIdx index line) :
    ∃ told last, (∀ token ∈ told, token.kind ≠ .eof) ∧
      Gapped true (TokenStream.ofSource source).toList (told ++ [Token.endOfInput last]) ∧
      (TokenStream.ofSource other).toList =
        (told ++ [Token.endOfInput last]).map (Token.mapLine (lineBehind index)) := by
  obtain ⟨above, below, rfl, hbelow, hsource, hlines⟩ :=
    exists_sourceLines_of_insertIdx hindex hother
  rw [RawLine.toLine_of_isBlank (isBlank_of_all_isWhite hwhite)] at hlines
  refine ⟨endedTokens Margin.initial 0 above ++
      scanLines ((Margin.initial.below above).after .blank) above.length below,
    above.length + (below.length - 1), ?_, ?_, ?_⟩
  · intro token hmem
    rcases List.mem_append.mp hmem with hmem | hmem
    · exact kind_ne_eof_of_mem_endedTokens hmem
    · exact kind_ne_eof_of_mem_scanLines hmem
  · have hlast : ∀ last ∈ (endedTokens Margin.initial 0 above).getLast?,
        last.kind.isVisible = false := by
      intro last hmem
      rw [kind_getLast?_endedTokens hmem]
      rfl
    rw [toList_of_sourceLines_append hsource hbelow, List.append_assoc]
    exact (gapped_scanLines _ rfl).append _ hlast fun _ => rfl
  · rw [toList_of_sourceLines_insert (by simp) hbelow hlines, List.append_assoc]

variable {capabilities : Capabilities}

/-- A blank line before some line of a text moves that line and those below it, and changes nothing
    else: the tree is the same on the lines that it has then, and so is the message of an error. -/
theorem parseProgram_insertIdx_white (hindex : index < (byteLines source).length)
    (hwhite : line.all RawLine.isWhite = true)
    (hother : byteLines other = (byteLines source).insertIdx index line) :
    (∀ block, parseProgram capabilities source = .ok block →
      parseProgram capabilities other = .ok (Block.mapLines (lineBehind index) block)) ∧
    ∀ error, parseProgram capabilities source = .error error →
      ∃ moved, parseProgram capabilities other = .error moved ∧
        moved.message = error.message ∧
        moved.found.line = lineBehind index error.found.line := by
  obtain ⟨told, last, htold, hgapped, htokens⟩ := exists_gapped_of_insertIdx hindex hwhite hother
  constructor
  · intro block hparse
    obtain ⟨derivation⟩ := parseProgram_eq_ok_iff.mp hparse
    obtain ⟨root⟩ := derivation.root.replay_root_gapped hgapped
    obtain ⟨root⟩ := root.replay_map htold (lineBehind index)
    rw [parseProgram_eq_ok_iff, htokens]
    exact ⟨⟨_, root⟩⟩
  · intro error hparse
    rw [← Parse.run_toList_eq_error_iff] at hparse
    have hstart : Outlook.start.AtLineStart := trivial
    obtain ⟨found, hfound, hfault, hline⟩ := Outlook.run_gapped hgapped (fun _ => hstart) hparse
    have hmoved := Outlook.run_map_mapLine (lineBehind index) hfound
    rw [← htokens, Parse.run_toList_eq_error_iff] at hmoved
    exact ⟨_, hmoved, congrArg ParseFault.message hfault, congrArg (lineBehind index) hline⟩

/-- A blank line before an `else` keeps it with its `if`, and one behind a header does not make the
    block that is missing there. -/
theorem parseProgram_insertIdx_before_else :
    2 < (byteLines "if facing_east:\n  move\nelse:\n  jump").length ∧
    ([9, 13] : List UInt8).all RawLine.isWhite = true ∧
    byteLines "if facing_east:\n  move\n\t\r\nelse:\n  jump" =
      (byteLines "if facing_east:\n  move\nelse:\n  jump").insertIdx 2 [9, 13] ∧
    parseProgram Capabilities.standard "if facing_east:\n  move\n\t\r\nelse:\n  jump" =
      .ok [.ifElse (.condition "facing_east") [.command (.command "move") 1]
        (.otherwise [.call "jump" 4]) 0] ∧
    parseProgram Capabilities.standard "do 2:\nmove" =
      .error { fault := .expectedBlock, found := ⟨.identifier "move", 1⟩ } ∧
    ∃ moved, parseProgram Capabilities.standard "do 2:\n\nmove" = .error moved ∧
      moved.message = "Expected an indented block." ∧ moved.found.line = 2 := by
  have hindex : 2 < (byteLines "if facing_east:\n  move\nelse:\n  jump").length := by decide
  have hwhite : ([9, 13] : List UInt8).all RawLine.isWhite = true := by decide
  have hother : byteLines "if facing_east:\n  move\n\t\r\nelse:\n  jump" =
      (byteLines "if facing_east:\n  move\nelse:\n  jump").insertIdx 2 [9, 13] := by decide
  have hparse : parseProgram Capabilities.standard "if facing_east:\n  move\nelse:\n  jump" =
      .ok [.ifElse (.condition "facing_east") [.command (.command "move") 1]
        (.otherwise [.call "jump" 3]) 0] := rfl
  have hfault : parseProgram Capabilities.standard "do 2:\nmove" =
      .error { fault := .expectedBlock, found := ⟨.identifier "move", 1⟩ } := rfl
  have hbody : 1 < (byteLines "do 2:\nmove").length := by decide
  have hinserted : byteLines "do 2:\n\nmove" = (byteLines "do 2:\nmove").insertIdx 1 [] := by decide
  refine ⟨hindex, hwhite, hother, ?_, hfault, ?_⟩
  · exact (parseProgram_insertIdx_white hindex hwhite hother).1 _ hparse
  · exact (parseProgram_insertIdx_white hbody rfl hinserted).2 _ hfault

end Karel
