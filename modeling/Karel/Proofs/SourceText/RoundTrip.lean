import Karel.Proofs.Parse.Agreement
import Karel.Proofs.SourceText.Indentation
import Karel.Proofs.SourceText.LineNumbers

/-!
# Reading the program text of a tree

The program text of a well-formed tree is a program, and its tree is the given one with the lines
of the text. The derivation is built along the tree: each header is read at its own level, and the
levels that a body opens are closed in front of the line behind it.

## Main definitions

- `Level` — a depth together with the widths that are open there
- `Level.tokens` — the tokens ahead of a line, where the lines above leave a level open
- `Block.Derives` — a tree whose program text is derived at every level

## Main results

- `Block.Derives.body` — the text of a block inside a statement is the body of that statement
- `Block.derives` — the text of a well-formed block is derived
- `parseProgram_sourceText` — the text of a well-formed tree is read as that tree
-/

namespace Karel

open Grammar

-- ════════════════════════════════════════════════════════════════════════
-- Levels
-- ════════════════════════════════════════════════════════════════════════

/-- A depth, and widths that are open at this depth of a program text. -/
structure Level where
  depth : Nat
  widths : List Nat
  headD_widths : widths.headD 0 = 2 * depth

namespace Level

/-- The level of the root block. -/
def root : Level where
  depth := 0
  widths := []
  headD_widths := rfl

/-- The level of a block inside a statement. -/
def inner (level : Level) : Level where
  depth := level.depth + 1
  widths := 2 * (level.depth + 1) :: level.widths
  headD_widths := rfl

/-- The tokens ahead from a line on, up to the end of the input. -/
def tokens (level : Level) (line : Nat) (lines : List Line) (last : Nat) : List Token :=
  scanLines ⟨level.widths, .packed⟩ line lines ++ [Token.endOfInput last]

variable {level : Level} {line last : Nat} {lines : List Line} {text : String}
  {kinds : List TokenKind}

/-- A header at the open level becomes its tokens and a `newline`. -/
theorem tokens_header (h : IsHeader text kinds) (hlines : lines ≠ []) :
    level.tokens line (entryLine (level.depth, text) :: lines) last =
      (kinds.map fun kind => ⟨kind, line⟩) ++
        ⟨.newline, line⟩ :: level.tokens (line + 1) lines last := by
  obtain ⟨pieces, hline, htext⟩ := h.entryLine_eq level.depth
  rw [tokens, hline, scanLines_level level.headD_widths hlines, htext, List.append_assoc]
  rfl

/-- A header below the open level has an `indent` in front. -/
theorem tokens_inner_header (h : IsHeader text kinds) (hlines : lines ≠ []) :
    level.tokens line (entryLine (level.inner.depth, text) :: lines) last =
      ⟨.indent, line⟩ ::
        level.inner.tokens line (entryLine (level.inner.depth, text) :: lines) last := by
  obtain ⟨pieces, hline, -⟩ := h.entryLine_eq level.inner.depth
  have hwider : level.widths.headD 0 < 2 * level.inner.depth := by
    rw [level.headD_widths]
    show 2 * level.depth < 2 * (level.depth + 1)
    omega
  rw [tokens, hline, scanLines_open hwider hlines]
  rfl

/-- Behind a block there is a `dedent`. -/
theorem tokens_leave (h : Leaves (2 * level.depth) lines) :
    level.inner.tokens line lines last = ⟨.dedent, line⟩ :: level.tokens line lines last := by
  have hwider : 2 * level.depth < 2 * (level.depth + 1) := by omega
  rw [tokens, inner, scanLines_close h hwider]
  rfl

end Level

theorem Leaves.mono {bound wider : Nat} {lines : List Line} (h : Leaves bound lines)
    (hle : bound ≤ wider) : Leaves wider lines := by
  cases h with
  | last => exact .last
  | code narrow pieces below => exact .code (Nat.le_trans narrow hle) pieces below

/-- A header leaves the blocks that are deeper. -/
theorem IsHeader.leaves {text : String} {kinds : List TokenKind} (h : IsHeader text kinds)
    (depth : Nat) (lines : List Line) : Leaves (2 * depth) (entryLine (depth, text) :: lines) := by
  obtain ⟨pieces, hline, -⟩ := h.entryLine_eq depth
  rw [hline]
  exact .code (Nat.le_refl _) pieces lines

variable {capabilities : Capabilities}

theorem Block.leaves_code {block : Block} {depth : Nat} {more : List Line}
    (h : Block.WellFormed capabilities block) (hmore : Leaves (2 * depth) more) :
    Leaves (2 * depth) ((Block.code depth block).map entryLine ++ more) := by
  cases block with
  | nil => exact hmore
  | cons statement rest =>
    obtain ⟨text, kinds, entries, hcode, hheader⟩ := Statement.exists_code_eq depth h.1
    rw [Block.code, hcode]
    exact hheader.leaves depth _

theorem Arms.leaves_code {arms : Arms} {depth : Nat} {more : List Line}
    (h : arms.WellFormed capabilities) (hmore : Leaves (2 * depth) more) :
    Leaves (2 * depth) ((arms.code depth).map entryLine ++ more) := by
  cases arms with
  | done => exact hmore
  | otherwise body => exact isHeader_else.leaves depth _
  | elif callable line body next =>
    have hname := isHeader_name (Callable.isName_of_isConditionOf h.1)
    exact (isHeader_keyword .elif hname).leaves depth _

-- ════════════════════════════════════════════════════════════════════════
-- Trees that are derived from their text
-- ════════════════════════════════════════════════════════════════════════

/-- The text of a statement is derived at every level, if what is behind it leaves the blocks
    inside. -/
def Statement.Derives (capabilities : Capabilities) (statement : Statement) : Prop :=
  ∀ (level : Level) (line last : Nat) (more : List Line), Leaves (2 * level.depth) more →
    Nonempty (StatementDerivation capabilities
      (level.tokens line ((statement.code level.depth).map entryLine ++ more) last)
      (statement.renumber line)
      (level.tokens (line + (statement.code 0).length) more last))

/-- The text of some arms is derived at every level. -/
def Arms.Derives (capabilities : Capabilities) (arms : Arms) : Prop :=
  ∀ (level : Level) (line last : Nat) (more : List Line), Leaves (2 * level.depth) more →
    Nonempty (ArmsDerivation capabilities
      (level.tokens line ((arms.code level.depth).map entryLine ++ more) last)
      (arms.renumber line)
      (level.tokens (line + (arms.code 0).length) more last))

/-- The text of a block is derived at every level. -/
def Block.Derives (capabilities : Capabilities) (block : Block) : Prop :=
  ∀ (level : Level) (line last : Nat) (more : List Line), Leaves (2 * level.depth) more →
    Nonempty (BlockDerivation capabilities
      (level.tokens line ((Block.code level.depth block).map entryLine ++ more) last)
      (Block.renumber line block)
      (level.tokens (line + (Block.code 0 block).length) more last))

variable {statement : Statement} {arms : Arms} {block : Block}

/-- The lines of a well-formed block are those of a body, where a block inside a statement is
    asked for. An empty one has a line with nothing but a `newline` to read. -/
theorem Block.Derives.innerCode (h : Block.Derives capabilities block) (level : Level)
    (line last : Nat) {more : List Line} (hmore : Leaves (2 * level.depth) more) :
    Nonempty (BlockDerivation capabilities
      (level.tokens line ((Block.innerCode level.depth block).map entryLine ++ more) last)
      (Block.renumber line block)
      (level.tokens (line + (Block.innerCode 0 block).length) more last)) := by
  cases block with
  | nil =>
    show Nonempty (BlockDerivation capabilities
      (level.tokens line (entryLine (level.depth, ";") :: more) last) [] _)
    rw [Level.tokens_header isHeader_semicolon hmore.ne_nil]
    exact ⟨.newline (.nil _)⟩
  | cons statement rest => exact h level line last more hmore

/-- Behind a header the text of a block is a body: it opens a level, and what is behind it closes
    that level. -/
theorem Block.Derives.body (h : Block.Derives capabilities block)
    (hblock : Block.WellFormed capabilities block) (level : Level) (line last : Nat)
    {more : List Line} (hmore : Leaves (2 * level.depth) more) :
    Nonempty (BodyDerivation capabilities
      (⟨.colon, line⟩ :: ⟨.newline, line⟩ :: level.tokens (line + 1)
        ((Block.innerCode (level.depth + 1) block).map entryLine ++ more) last)
      (Block.renumber (line + 1) block)
      (level.tokens (line + 1 + (Block.innerCode 0 block).length) more last)) := by
  obtain ⟨text, kinds, entries, hcode, hheader⟩ :=
    Block.exists_innerCode_eq level.inner.depth hblock
  have hbehind : entries.map entryLine ++ more ≠ [] :=
    List.append_ne_nil_of_right_ne_nil _ hmore.ne_nil
  have hopen : level.tokens (line + 1)
      ((Block.innerCode (level.depth + 1) block).map entryLine ++ more) last =
      ⟨.indent, line + 1⟩ :: level.inner.tokens (line + 1)
        ((Block.innerCode level.inner.depth block).map entryLine ++ more) last := by
    have hinner : Block.innerCode (level.depth + 1) block = _ := hcode
    rw [hcode, hinner, List.map_cons, List.cons_append, Level.tokens_inner_header hheader hbehind]
  have hleaves : Leaves (2 * level.inner.depth) more :=
    hmore.mono (Nat.mul_le_mul_left 2 (Nat.le_succ level.depth))
  obtain ⟨inner⟩ := h.innerCode level.inner (line + 1) last hleaves
  rw [Level.tokens_leave hmore] at inner
  rw [hopen]
  exact ⟨.intro inner⟩

/-- A header and the block inside its statement become the tokens of the header up to the colon,
    and a body. -/
theorem Block.Derives.tokens_header (h : Block.Derives capabilities block)
    (hblock : Block.WellFormed capabilities block) {text : String} {kinds : List TokenKind}
    (hheader : IsHeader text (kinds ++ [.colon])) (level : Level) (line last : Nat)
    {more : List Line} (hmore : Leaves (2 * level.depth) more) :
    ∃ tokens, level.tokens line (((level.depth, text) ::
        Block.innerCode (level.depth + 1) block).map entryLine ++ more) last =
        (kinds.map fun kind => ⟨kind, line⟩) ++ tokens ∧
      Nonempty (BodyDerivation capabilities tokens (Block.renumber (line + 1) block)
        (level.tokens (line + 1 + (Block.innerCode 0 block).length) more last)) := by
  have hbehind := List.append_ne_nil_of_right_ne_nil
    ((Block.innerCode (level.depth + 1) block).map entryLine) hmore.ne_nil
  refine ⟨_, ?_, h.body hblock level line last hmore⟩
  rw [List.map_cons, List.cons_append, Level.tokens_header hheader hbehind, List.map_append,
    List.append_assoc]
  rfl

/-- The line behind a header and the block inside its statement. -/
theorem Block.line_add_length (line depth : Nat) (block : List Statement) :
    line + ((Block.innerCode depth block).length + 1) =
      line + 1 + (Block.innerCode 0 block).length := by
  rw [Block.length_innerCode depth 0]
  omega

-- The induction is on the tree. What is behind a phrase is arbitrary, as long as it leaves the
-- blocks inside the phrase, so that a phrase may be followed by the rest of its block.
mutual

theorem Statement.derives :
    (statement : Statement) → statement.WellFormed capabilities →
      statement.Derives capabilities
  | .command (.command name) _, h => by
    intro level line last more hmore
    have hheader := isHeader_name (capabilities.isName_of_mem_commands name h)
    rw [Statement.code, List.map_singleton, List.singleton_append, Callable.name,
      Level.tokens_header hheader hmore.ne_nil]
    exact ⟨.command h (.newline line _)⟩
  | .call name _, h => by
    intro level line last more hmore
    rw [Statement.code, List.map_singleton, List.singleton_append,
      Level.tokens_header (isHeader_name h.1) hmore.ne_nil]
    exact ⟨.call h.2 (.newline line _)⟩
  | .doTimes _ count body _, ⟨rfl, hpositive, hlimit, hbody⟩ => by
    intro level line last more hmore
    have hheader := isHeader_keyword .«do» (isHeader_repr count)
    obtain ⟨tokens, htokens, ⟨inner⟩⟩ :=
      (Block.derives body hbody).tokens_header hbody hheader level line last hmore
    rw [Statement.code_doTimes, Statement.code_doTimes, htokens, List.length_cons,
      Block.line_add_length]
    exact ⟨.doTimes (value?_repr hlimit) hpositive inner⟩
  | .ifElse (.condition name) body arms _, ⟨hname, hbody, harms⟩ => by
    intro level line last more hmore
    have hheader := isHeader_keyword .«if»
      (isHeader_name (capabilities.isName_of_mem_conditions name hname))
    -- the first arm leaves the body of the `if`
    have hleaves := Arms.leaves_code harms hmore
    obtain ⟨tokens, htokens, ⟨inner⟩⟩ :=
      (Block.derives body hbody).tokens_header hbody hheader level line last hleaves
    obtain ⟨others⟩ := Arms.derives arms harms level
      (line + 1 + (Block.innerCode 0 body).length) last more hmore
    rw [Statement.code_ifElse, Statement.code_ifElse, ← List.cons_append, ← List.cons_append,
      List.map_append, List.append_assoc, Callable.name, htokens, List.length_append,
      List.length_cons, ← Nat.add_assoc line, Block.line_add_length]
    exact ⟨.ifElse hname inner others⟩
  | .whileDo (.condition name) body _, ⟨hname, hbody⟩ => by
    intro level line last more hmore
    have hheader := isHeader_keyword .«while»
      (isHeader_name (capabilities.isName_of_mem_conditions name hname))
    obtain ⟨tokens, htokens, ⟨inner⟩⟩ :=
      (Block.derives body hbody).tokens_header hbody hheader level line last hmore
    rw [Statement.code_whileDo, Statement.code_whileDo, Callable.name, htokens, List.length_cons,
      Block.line_add_length]
    exact ⟨.whileDo hname inner⟩
  | .define name body _, ⟨hname, hbody⟩ => by
    intro level line last more hmore
    have hheader := isHeader_keyword .define (isHeader_name hname)
    obtain ⟨tokens, htokens, ⟨inner⟩⟩ :=
      (Block.derives body hbody).tokens_header hbody hheader level line last hmore
    rw [Statement.code_define, Statement.code_define, htokens, List.length_cons,
      Block.line_add_length]
    exact ⟨.define inner⟩

theorem Arms.derives :
    (arms : Arms) → arms.WellFormed capabilities → arms.Derives capabilities
  | .done, _ => by
    intro level line last more _
    exact ⟨.done _⟩
  | .otherwise body, hbody => by
    intro level line last more hmore
    obtain ⟨tokens, htokens, ⟨inner⟩⟩ :=
      (Block.derives body hbody).tokens_header hbody isHeader_else level line last hmore
    rw [Arms.code, Arms.code, htokens, List.length_cons, Block.line_add_length]
    exact ⟨.otherwise inner⟩
  | .elif (.condition name) _ body next, ⟨hname, hbody, hnext⟩ => by
    intro level line last more hmore
    have hheader := isHeader_keyword .elif
      (isHeader_name (capabilities.isName_of_mem_conditions name hname))
    have hleaves := Arms.leaves_code hnext hmore
    obtain ⟨tokens, htokens, ⟨inner⟩⟩ :=
      (Block.derives body hbody).tokens_header hbody hheader level line last hleaves
    obtain ⟨others⟩ := Arms.derives next hnext level
      (line + 1 + (Block.innerCode 0 body).length) last more hmore
    rw [Arms.code_elif, Arms.code_elif, ← List.cons_append, ← List.cons_append,
      List.map_append, List.append_assoc, Callable.name, htokens, List.length_append,
      List.length_cons, ← Nat.add_assoc line, Block.line_add_length]
    exact ⟨.elif hname inner others⟩

theorem Block.derives :
    (block : List Statement) → Block.WellFormed capabilities block →
      Block.Derives capabilities block
  | [], _ => by
    intro level line last more _
    exact ⟨.nil _⟩
  | statement :: rest, h => by
    intro level line last more hmore
    have hleaves : Leaves (2 * level.depth)
        ((Block.code level.depth rest).map entryLine ++ more) := Block.leaves_code h.2 hmore
    obtain ⟨first⟩ := Statement.derives statement h.1 level line last _ hleaves
    obtain ⟨others⟩ := Block.derives rest h.2 level (line + (statement.code 0).length) last _ hmore
    rw [Nat.add_assoc, ← List.length_append] at others
    rw [Block.code, List.map_append, List.append_assoc]
    exact ⟨.cons first others⟩

end

-- ════════════════════════════════════════════════════════════════════════
-- The whole text
-- ════════════════════════════════════════════════════════════════════════

/-- The tokens of the program text of a well-formed tree are those at the level of the root. -/
theorem toList_ofSource_sourceText (h : Block.WellFormed capabilities block) :
    (TokenStream.ofSource (Block.sourceText block)).toList =
      Level.root.tokens 0 ((Block.code 0 block).map entryLine ++ [.blank])
        (Block.code 0 block).length := by
  have hlines : sourceLines (Block.sourceText block) =
      (Block.code 0 block).map entryLine ++ [.blank] :=
    sourceLines_join (Block.isHeader_of_mem_code 0 block h)
  have hlast : endLine (Block.sourceText block) = (Block.code 0 block).length := by
    simp [endLine, hlines]
  have hleaves : Leaves (2 * 0) ((Block.code 0 block).map entryLine ++ [.blank]) :=
    Block.leaves_code h .last
  -- no line of code is above the first one, but neither is a blank line
  rw [Level.tokens, ← hlast]
  show scanLines ⟨[], .leading⟩ 0 (sourceLines _) ++ _ = scanLines ⟨[], .packed⟩ 0 _ ++ _
  rw [hlines, scanLines_leading hleaves]
  rfl

/-- The program text of a well-formed tree is read as the tree with the line numbers of the text.
    Nothing but line numbers is changed, and they are those of the lines of the text that hold a
    statement or an `elif`. -/
theorem parseProgram_sourceText (h : Block.WellFormed capabilities block) :
    parseProgram capabilities (Block.sourceText block) = .ok (Block.renumber 0 block) ∧
      Block.withoutLines (Block.renumber 0 block) = Block.withoutLines block ∧
      Block.numbered 0 (Block.renumber 0 block) = headerLines (Block.code 0 block) 0 := by
  refine ⟨?_, Block.withoutLines_renumber 0 block, Block.numbered_renumber 0 0 block h⟩
  obtain ⟨root⟩ :=
    Block.derives block h Level.root 0 (Block.code 0 block).length [.blank] .last
  rw [parseProgram_eq_ok_iff, toList_ofSource_sourceText h]
  exact ⟨{ endLine := (Block.code 0 block).length, root }⟩

/-- Blocks may be empty, and several may end on one line. -/
theorem parseProgram_sourceText_of_empty_blocks :
    parseProgram Capabilities.standard
      "if facing_east:\n  do 10:\n    ;\nelif facing_west:\n  move\nelse:\n  spin\ndefine spin:\n  ;\n" =
      .ok [.ifElse (.condition "facing_east") [.doTimes .repetition 10 [] 1]
          (.elif (.condition "facing_west") 3 [.command (.command "move") 4]
            (.otherwise [.call "spin" 6])) 0,
        .define "spin" [] 7] := by
  have hwell : Block.WellFormed Capabilities.standard
      [.ifElse (.condition "facing_east") [.doTimes .repetition 10 [] 0]
          (.elif (.condition "facing_west") 0 [.command (.command "move") 0]
            (.otherwise [.call "spin" 0])) 0,
        .define "spin" [] 0] := by
    simp only [Block.WellFormed, Statement.WellFormed, Arms.WellFormed,
      Callable.IsCommandOf, Callable.IsConditionOf]
    decide
  exact (parseProgram_sourceText hwell).1

end Karel
