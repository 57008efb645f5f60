import Karel.Proofs.Layout.Levels
import Karel.Proofs.Parse.Agreement

/-!
# Nesting

The nesting of a tree is the indentation of its source text. The statements of a block stand on
lines of one width, which is larger than that of the header of the block, and the arms of an `if`
are as wide as the `if`.

## Main definitions

- `Grammar.BlockDerivation.Aligned` and its companions — a phrase whose lines are indented as it
  is nested

## Main results

- `Grammar.BlockDerivation.aligned` — phrases derived from levelled tokens are aligned
- `aligned_of_parseProgram` — a tree is nested as its source text is indented

## Design notes

A tree does not tell the line of an `else`. Its derivation holds the token, so alignment is stated
of derivations.
-/

namespace Karel

namespace Grammar

variable {capabilities : Capabilities}

mutual

/-- The statements directly in a block all stand on lines of the width `column`, and what is
    nested in them is aligned. -/
def BlockDerivation.Aligned (width : Nat → Nat) (column : Nat) {tokens rest : List Token}
    {block : Block} : BlockDerivation capabilities tokens block rest → Prop
  | .nil _ => True
  | .newline others => others.Aligned width column
  | @BlockDerivation.cons _ _ _ _ statement _ first others =>
    width statement.line = column ∧ first.Aligned width ∧ others.Aligned width column

/-- What is nested in a statement is aligned to the line of the statement. -/
def StatementDerivation.Aligned (width : Nat → Nat) {tokens rest : List Token}
    {statement : Statement} : StatementDerivation capabilities tokens statement rest → Prop
  | .command _ _ | .call _ _ => True
  | .doTimes _ _ body => body.Aligned width (width statement.line)
  | .ifElse _ body arms =>
    body.Aligned width (width statement.line) ∧ arms.Aligned width (width statement.line)
  | .whileDo _ body => body.Aligned width (width statement.line)
  | .define body => body.Aligned width (width statement.line)

/-- Each arm of an `if` begins on a line of the width `column`, and its block is aligned to that
    line. -/
def ArmsDerivation.Aligned (width : Nat → Nat) (column : Nat) {tokens rest : List Token}
    {arms : Arms} : ArmsDerivation capabilities tokens arms rest → Prop
  | .done _ => True
  | .newline _ others => others.Aligned width column
  | @ArmsDerivation.elif _ _ line _ _ _ _ _ _ _ body others =>
    width line = column ∧ body.Aligned width (width line) ∧ others.Aligned width column
  | @ArmsDerivation.otherwise _ line _ _ _ body =>
    width line = column ∧ body.Aligned width (width line)

/-- The block behind a header is wider than the line of the header. -/
def BodyDerivation.Aligned (width : Nat → Nat) (header : Nat) {tokens rest : List Token}
    {block : Block} : BodyDerivation capabilities tokens block rest → Prop
  | .intro inner => ∃ column, header < column ∧ inner.Aligned width column

end

variable {width : Nat → Nat} {levels : List Nat}

theorem EndsStatement.levelled {tokens rest : List Token} (h : EndsStatement tokens rest)
    (hlevelled : Levelled width levels tokens) : Levelled width levels rest := by
  cases h with
  | newline line rest => exact hlevelled
  | dedent line rest | eof line rest => exact hlevelled

mutual

/-- A block behind which the same levels are open is aligned to the innermost one. -/
theorem BlockDerivation.aligned {tokens rest : List Token} {block : Block} {levels : List Nat} :
    (derivation : BlockDerivation capabilities tokens block rest) →
      Levelled width levels tokens →
      derivation.Aligned width (levels.headD 0) ∧ Levelled width levels rest
  | .nil _, h => ⟨trivial, h⟩
  | .newline others, h => others.aligned (levelled_newline.mp h)
  | .cons first others, h => by
    obtain ⟨hwidth, hfirst, hmiddle⟩ := first.aligned h
    obtain ⟨hothers, hrest⟩ := others.aligned hmiddle
    exact ⟨⟨hwidth, hfirst, hothers⟩, hrest⟩

/-- A statement stands on a line as wide as the innermost level, and leaves the levels open. -/
theorem StatementDerivation.aligned {tokens rest : List Token} {statement : Statement}
    {levels : List Nat} :
    (derivation : StatementDerivation capabilities tokens statement rest) →
      Levelled width levels tokens →
      width statement.line = levels.headD 0 ∧ derivation.Aligned width ∧
        Levelled width levels rest
  | .command _ ends, ⟨hwidth, h⟩ => ⟨hwidth, trivial, ends.levelled h⟩
  | .call _ ends, ⟨hwidth, h⟩ => ⟨hwidth, trivial, ends.levelled h⟩
  | .doTimes _ _ body, ⟨hwidth, _, h⟩ => by
    obtain ⟨hbody, hrest⟩ := body.aligned h
    rw [← hwidth] at hbody
    exact ⟨hwidth, hbody, hrest⟩
  | .ifElse _ body arms, ⟨hwidth, _, h⟩ => by
    obtain ⟨hbody, hmiddle⟩ := body.aligned h
    obtain ⟨harms, hrest⟩ := arms.aligned hmiddle
    rw [← hwidth] at hbody harms
    exact ⟨hwidth, ⟨hbody, harms⟩, hrest⟩
  | .whileDo _ body, ⟨hwidth, _, h⟩ => by
    obtain ⟨hbody, hrest⟩ := body.aligned h
    rw [← hwidth] at hbody
    exact ⟨hwidth, hbody, hrest⟩
  | .define body, ⟨hwidth, _, h⟩ => by
    obtain ⟨hbody, hrest⟩ := body.aligned h
    rw [← hwidth] at hbody
    exact ⟨hwidth, hbody, hrest⟩

/-- The arms of an `if` stand on lines as wide as the innermost level, which is that of the
    `if`. -/
theorem ArmsDerivation.aligned {tokens rest : List Token} {arms : Arms} {levels : List Nat} :
    (derivation : ArmsDerivation capabilities tokens arms rest) →
      Levelled width levels tokens →
      derivation.Aligned width (levels.headD 0) ∧ Levelled width levels rest
  | .done _, h => ⟨trivial, h⟩
  | .newline _ others, h => others.aligned (levelled_newline.mp h)
  | .elif _ body others, ⟨hwidth, _, h⟩ => by
    obtain ⟨hbody, hmiddle⟩ := body.aligned h
    obtain ⟨hothers, hrest⟩ := others.aligned hmiddle
    rw [← hwidth] at hbody
    exact ⟨⟨hwidth, hbody, hothers⟩, hrest⟩
  | .otherwise body, ⟨hwidth, h⟩ => by
    obtain ⟨hbody, hrest⟩ := body.aligned h
    rw [← hwidth] at hbody
    exact ⟨⟨hwidth, hbody⟩, hrest⟩

/-- The `indent` of a body opens a level that is wider than the one around it, and its `dedent`
    closes that level. -/
theorem BodyDerivation.aligned {tokens rest : List Token} {block : Block} {levels : List Nat} :
    (derivation : BodyDerivation capabilities tokens block rest) →
      Levelled width levels tokens →
      derivation.Aligned width (levels.headD 0) ∧ Levelled width levels rest
  | .intro inner, ⟨_, hwider, h⟩ => by
    obtain ⟨hinner, -, hrest⟩ := inner.aligned h
    exact ⟨⟨_, hwider, hinner⟩, hrest⟩

end

end Grammar

/-- The tree of a source text is nested as the text is indented: it has a derivation from the
    tokens of the text, and in each derivation the root block is aligned to width zero. -/
theorem aligned_of_parseProgram {capabilities : Capabilities} {source : String} {block : Block}
    (h : parseProgram capabilities source = .ok block) :
    Nonempty (Grammar.ProgramDerivation capabilities (TokenStream.ofSource source).toList block) ∧
      ∀ derivation : Grammar.ProgramDerivation capabilities (TokenStream.ofSource source).toList
        block, derivation.root.Aligned (lineWidth source) 0 := by
  refine ⟨parseProgram_eq_ok_iff.mp h, fun derivation => ?_⟩
  exact (derivation.root.aligned (levelled_toList source)).1

/-- The blocks of two arms may be indented by different widths, and blank lines do not count. -/
theorem exists_aligned_of_unequal_arms :
    ∃ derivation : Grammar.ProgramDerivation Capabilities.standard
      (TokenStream.ofSource "if facing_east:\n   move\nelse:\n move\n\nturnleft").toList
      [.ifElse (.condition "facing_east") [.command (.command "move") 1]
        (.otherwise [.command (.command "move") 3]) 0, .command (.command "turnleft") 5],
      derivation.root.Aligned
        (lineWidth "if facing_east:\n   move\nelse:\n move\n\nturnleft") 0 := by
  have hparse : parseProgram Capabilities.standard
      "if facing_east:\n   move\nelse:\n move\n\nturnleft" =
      .ok [.ifElse (.condition "facing_east") [.command (.command "move") 1]
        (.otherwise [.command (.command "move") 3]) 0, .command (.command "turnleft") 5] := by
    rfl
  obtain ⟨⟨derivation⟩, haligned⟩ := aligned_of_parseProgram hparse
  exact ⟨derivation, haligned derivation⟩

end Karel
