import Karel.Proofs.Layout.LineEnds
import Karel.Proofs.Parse.Calls

/-!
# Headers without a body

A header is the last of its line, and its body is on the lines below, further in. If the next line
with code is not, or if there is none, the program is rejected there, or else on the last line.

## Main definitions

- `HasHeader` — a line that ends in a header that is read

## Main results

- `parseProgram_of_missing_body` — how a program with a header without a body is rejected
- `parseProgram_of_header_at_end` — a header in a block, where the input ends without a `newline`
-/

namespace Karel

open Parse

variable {capabilities : Capabilities} {source : String} {line : Nat}

/-- While a program is read, a body is asked for at a colon that is the last token of a line. -/
def HasHeader (capabilities : Capabilities) (source : String) (line : Nat) : Prop :=
  ∃ bound rest,
    Reaches ⟨capabilities, endLine source⟩ (scan source) .body bound (⟨.colon, line⟩ :: rest) ∧
      ∀ token ∈ rest, token.kind.isVisible = true → token.line ≠ line

/-- Below a line with code no block is open just if the line is not indented. -/
theorem Margin.levelsAfter_eq_nil_iff {levels : List Nat} {width : Nat}
    (h : ∀ level ∈ levels, 0 < level) : levelsAfter levels width = [] ↔ width = 0 := by
  have hhead := headD_levelsAfter levels width
  constructor
  · intro hnil
    rw [hnil] at hhead
    exact hhead.symm
  · rintro rfl
    cases hafter : levelsAfter levels 0 with
    | nil => rfl
    | cons level below =>
      have hpos : 0 < level := pos_of_mem_levelsAfter h (hafter ▸ List.mem_cons_self)
      rw [hafter, List.headD_cons] at hhead
      exact absurd hhead (Nat.ne_of_gt hpos)

/-- Where the input ends behind the text of a header, the body is missed, or else the `newline` if
    there are blocks to close. -/
theorem fails_body_closing {context : ParseContext} {block : Parse Block} {margin : Margin}
    (hend : context.endLine = line) :
    ∃ found, found.line = line ∧
      Fails (body block) context (⟨.colon, line⟩ :: margin.closing line)
        { fault := if margin.levels = [] then .expectedBlock else .expectedNewline, found } := by
  cases hlevels : margin.levels with
  | nil =>
    have hclosing : margin.closing line = [] := by
      rw [Margin.closing, hlevels]
      rfl
    refine ⟨Token.endOfInput line, rfl, ?_⟩
    rw [hclosing, ← hend]
    exact fails_body_of_missing.2 (by simp [Token.endOfInput])
  | cons level levels =>
    have hclosing : margin.closing line =
        ⟨.dedent, line⟩ :: levels.map fun _ => ⟨.dedent, line⟩ := by
      rw [Margin.closing, hlevels]
      rfl
    refine ⟨⟨.dedent, line⟩, rfl, ?_⟩
    rw [hclosing]
    exact fails_body_of_missing.2 (by simp)

/-- Where further lines follow the text of a header, the body is missed on the first one with code,
    or else on the last one. -/
theorem Parse.Reaches.fails_body_newline {context : ParseContext} {start : List Token}
    {width : Nat → Nat} {bound : Nat} {margin : Margin} {lines : List Line}
    (hstart : Levelled width [] (context.ended start))
    (h : Reaches context start .body bound
      (⟨.colon, line⟩ :: ⟨.newline, line⟩ :: scanLines margin (line + 1) lines))
    (hne : lines ≠ []) (hend : context.endLine = line + lines.length)
    (hnarrow : ∀ offset ∈ lines.findIdx? Line.isCode, width (line + 1 + offset) ≤ width line) :
    ∃ found,
      found.line = ((lines.findIdx? Line.isCode).map (line + 1 + ·)).getD context.endLine ∧
      Fails (body (block bound)) context
        (⟨.colon, line⟩ :: ⟨.newline, line⟩ :: scanLines margin (line + 1) lines)
        { fault := .expectedBlock, found } := by
  have hlength := List.length_pos_iff.mpr hne
  have hfirst : (firstToken context (scanLines margin (line + 1) lines)).line =
      line + 1 + (lines.findIdx? Line.isCode).getD (lines.length - 1) :=
    line_headD_scanLines hne (by omega)
  refine ⟨firstToken context (scanLines margin (line + 1) lines), ?_,
    fails_body_of_missing.1 line fun hkind => ?_⟩
  · rw [hfirst]
    cases lines.findIdx? Line.isCode with
    | none =>
      rw [Option.map_none, Option.getD_none, Option.getD_none]
      omega
    | some offset => rfl
  · cases hoffset : lines.findIdx? Line.isCode with
    | none => exact kind_headD_scanLines hne hoffset hkind
    | some offset =>
      have hwide := h.width_lt_of_indent hstart hkind
      rw [hfirst, hoffset] at hwide
      exact absurd (hnarrow offset hoffset) (Nat.not_le_of_lt hwide)

/-- The body of a header is asked for before what is behind the line of the header, and no block is
    open there just if the line is not indented. -/
theorem HasHeader.exists_call (h : HasHeader capabilities source line) :
    ∃ bound margin below,
      Reaches ⟨capabilities, endLine source⟩ (scan source) .body bound
        (⟨.colon, line⟩ :: tokensBehind margin line below) ∧
      (margin.levels = [] ↔ lineWidth source line = 0) ∧
      (sourceLines source).drop (line + 1) = below ∧ endLine source = line + below.length := by
  obtain ⟨bound, rest, hcall, hlast⟩ := h
  obtain ⟨front, hscan⟩ := hcall.suffix
  obtain ⟨above, width, pieces, below, hlines, hline, rfl⟩ :=
    exists_line_of_last_visible hscan.symm rfl hlast
  have habove : line = above.length := hline.trans (Nat.zero_add _)
  have hcode : (sourceLines source)[line]? = some (.code width pieces) := by
    simp [hlines, habove]
  have hpos : ∀ level ∈ (Margin.initial.below above).levels, 0 < level := fun level hmem =>
    Margin.pos_of_mem_levels_below (by simp [Margin.initial]) hmem
  refine ⟨bound, _, below, hcall, ?_, ?_, ?_⟩
  · rw [lineWidth_of_getElem? hcode]
    exact Margin.levelsAfter_eq_nil_iff hpos
  · simp [hlines, habove]
  · simp [endLine, hlines, habove]

/-- The body of a header fails where it is missed. -/
theorem HasHeader.exists_fails (h : HasHeader capabilities source line)
    (hnarrow : ∀ next ∈ logicalLineBelow? source line,
      lineWidth source next ≤ lineWidth source line) :
    ∃ found, found.line = (logicalLineBelow? source line).getD (endLine source) ∧
      Fails program ⟨capabilities, endLine source⟩ (scan source)
        { fault := if line = endLine source ∧ 0 < lineWidth source line then .expectedNewline
            else .expectedBlock
          found } := by
  obtain ⟨bound, margin, below, hcall, hopen, hbelow, hend⟩ := h.exists_call
  rw [logicalLineBelow?_eq, hbelow] at hnarrow ⊢
  cases below with
  | nil =>
    have hfault : (if line = endLine source ∧ 0 < lineWidth source line then
        ParseFault.expectedNewline else .expectedBlock) =
          if margin.levels = [] then .expectedBlock else .expectedNewline := by
      by_cases hlevels : margin.levels = []
      · rw [if_neg (by simp [hopen.mp hlevels]), if_pos hlevels]
      · have hindented : 0 < lineWidth source line := Nat.pos_of_ne_zero (mt hopen.mpr hlevels)
        rw [if_pos ⟨hend.symm, hindented⟩, if_neg hlevels]
    have hclosing : ∃ found, found.line = line ∧
        Fails (body (block bound)) ⟨capabilities, endLine source⟩
          (⟨.colon, line⟩ :: margin.closing line)
          { fault := if margin.levels = [] then .expectedBlock else .expectedNewline, found } :=
      fails_body_closing hend
    obtain ⟨found, hfound, hfails⟩ := hclosing
    rw [hfault]
    exact ⟨found, hfound.trans hend.symm, hcall.fails_program hfails⟩
  | cons next more =>
    have hmiddle : ¬ (line = endLine source ∧ 0 < lineWidth source line) := by
      rw [hend, List.length_cons]
      omega
    have hstart : Levelled (lineWidth source) []
        ((⟨capabilities, endLine source⟩ : ParseContext).ended (scan source)) :=
      levelled_toList source
    have hoffsets : ∀ offset ∈ (next :: more).findIdx? Line.isCode,
        lineWidth source (line + 1 + offset) ≤ lineWidth source line := fun offset hoffset =>
      hnarrow _ (Option.mem_map_of_mem _ hoffset)
    obtain ⟨found, hfound, hfails⟩ :=
      hcall.fails_body_newline hstart (List.cons_ne_nil next more) hend hoffsets
    rw [if_neg hmiddle]
    exact ⟨found, hfound, hcall.fails_program hfails⟩

/-- A program with a header that has no body is rejected on the next line with code, or on the last
    line if there is none. The body is what is missed, unless the header is in a block and the
    input ends behind its colon. -/
theorem parseProgram_of_missing_body (h : HasHeader capabilities source line)
    (hnarrow : ∀ next ∈ logicalLineBelow? source line,
      lineWidth source next ≤ lineWidth source line) :
    ∃ error, parseProgram capabilities source = .error error ∧
      error.line = (logicalLineBelow? source line).getD (endLine source) + 1 ∧
      error.message =
        if line = endLine source ∧ 0 < lineWidth source line then "Expected a newline."
        else "Expected an indented block." := by
  obtain ⟨found, hfound, hfails⟩ := h.exists_fails hnarrow
  refine ⟨_, hfails, congrArg (· + 1) hfound, ?_⟩
  rw [ParseError.message]
  split <;> rfl

/-- Behind a header in a block there are a blank line and a line outside of the block. -/
theorem parseProgram_of_missing_inner_body :
    HasHeader Capabilities.standard "do 2:\n  if facing_east:\n\nmove" 1 ∧
    ∃ error, parseProgram Capabilities.standard "do 2:\n  if facing_east:\n\nmove" =
        .error error ∧
      error.line = 4 ∧ error.message = "Expected an indented block." := by
  have hscan : scan "do 2:\n  if facing_east:\n\nmove" =
      ⟨.keyword .«do», 0⟩ :: ⟨.number "2", 0⟩ :: ⟨.colon, 0⟩ :: ⟨.newline, 0⟩ :: ⟨.indent, 1⟩ ::
        ⟨.keyword .«if», 1⟩ :: ⟨.identifier "facing_east", 1⟩ :: ⟨.colon, 1⟩ ::
          [⟨.newline, 1⟩, ⟨.dedent, 3⟩, ⟨.newline, 3⟩, ⟨.identifier "move", 3⟩] := by decide
  have hheader : HasHeader Capabilities.standard "do 2:\n  if facing_east:\n\nmove" 1 := by
    have hprogram : Reaches ⟨Capabilities.standard, 3⟩
        (scan "do 2:\n  if facing_east:\n\nmove") .block 13
        (scan "do 2:\n  if facing_east:\n\nmove") := .program
    rw [hscan] at hprogram
    have hinner := ((hprogram.statement rfl (by simp)).doTimes
      (reads_count.mpr ⟨"2", 0, rfl, rfl, Nat.zero_lt_two⟩)).inner
    have hbody := (hinner.statement rfl (by simp)).ifElse
      (reads_condition.mpr ⟨"facing_east", 1, rfl, by decide, rfl⟩)
    exact ⟨_, _, hscan ▸ hbody, by decide⟩
  have hnarrow : ∀ next ∈ logicalLineBelow? "do 2:\n  if facing_east:\n\nmove" 1,
      lineWidth "do 2:\n  if facing_east:\n\nmove" next ≤
        lineWidth "do 2:\n  if facing_east:\n\nmove" 1 := by decide
  obtain ⟨error, herror, hline, hmessage⟩ := parseProgram_of_missing_body hheader hnarrow
  exact ⟨hheader, error, herror, hline, hmessage⟩

/-- Where the input ends behind the colon of a header in a block, the fault is not put into the
    words for a missing body. -/
theorem parseProgram_of_header_at_end :
    ¬ ∀ capabilities source line, HasHeader capabilities source line →
      (∀ next ∈ logicalLineBelow? source line, lineWidth source next ≤ lineWidth source line) →
      ∃ error, parseProgram capabilities source = .error error ∧
        error.line = (logicalLineBelow? source line).getD (endLine source) + 1 ∧
        error.message = "Expected an indented block." := by
  intro hall
  have hscan : scan "do 2:\n  do 3:" =
      ⟨.keyword .«do», 0⟩ :: ⟨.number "2", 0⟩ :: ⟨.colon, 0⟩ :: ⟨.newline, 0⟩ :: ⟨.indent, 1⟩ ::
        ⟨.keyword .«do», 1⟩ :: ⟨.number "3", 1⟩ :: ⟨.colon, 1⟩ :: [⟨.dedent, 1⟩] := by decide
  have hheader : HasHeader Capabilities.standard "do 2:\n  do 3:" 1 := by
    have hprogram : Reaches ⟨Capabilities.standard, 1⟩ (scan "do 2:\n  do 3:") .block 10
        (scan "do 2:\n  do 3:") := .program
    rw [hscan] at hprogram
    have hinner := ((hprogram.statement rfl (by simp)).doTimes
      (reads_count.mpr ⟨"2", 0, rfl, rfl, Nat.zero_lt_two⟩)).inner
    have hbody := (hinner.statement rfl (by simp)).doTimes
      (reads_count.mpr ⟨"3", 1, rfl, rfl, Nat.succ_pos 2⟩)
    exact ⟨_, _, hscan ▸ hbody, by decide⟩
  have hparse : parseProgram Capabilities.standard "do 2:\n  do 3:" =
      .error { fault := .expectedNewline, found := ⟨.dedent, 1⟩ } := rfl
  obtain ⟨error, herror, -, hmessage⟩ := hall _ _ _ hheader (by decide)
  rw [← Except.error.inj (hparse.symm.trans herror)] at hmessage
  exact absurd hmessage (by decide)

end Karel
