import Karel.Procedures
import Karel.Proofs.Layout.LeadingLines
import Karel.Proofs.Parse.Agreement

/-!
# Lines of a tree

Each statement and each arm of a tree begins on a line of its own, in the order of the text, and no
line with a visible token is left out.

## Main definitions

- `Grammar.BlockDerivation.startLines` and its companions — the lines on which the statements and
  the arms of a phrase begin

## Main results

- `Grammar.BlockDerivation.leadingLines_eq` and its companions — a phrase begins where its tokens do
- `Grammar.ProgramDerivation.pairwise_startLines`, `Grammar.ProgramDerivation.mem_startLines_iff` —
  a program begins on ascending lines, and these are the lines of its visible tokens
- `startLines_of_parseProgram` — the lines of the tree of a source text

## Design notes

A tree does not tell the line of an `else`, but its derivation does.
-/

namespace Karel

namespace Grammar

variable {capabilities : Capabilities}

mutual

/-- The lines of the statements and arms of a block, each before those inside it. -/
def BlockDerivation.startLines {tokens rest : List Token} {block : Block} :
    BlockDerivation capabilities tokens block rest → List Nat
  | .nil _ => []
  | .newline others => others.startLines
  | .cons first others => first.startLines ++ others.startLines

def StatementDerivation.startLines {tokens rest : List Token} {statement : Statement} :
    StatementDerivation capabilities tokens statement rest → List Nat
  | .command _ _ | .call _ _ => [statement.line]
  | .doTimes _ _ body | .whileDo _ body | .define body => statement.line :: body.startLines
  | .ifElse _ body arms => statement.line :: (body.startLines ++ arms.startLines)

def ArmsDerivation.startLines {tokens rest : List Token} {arms : Arms} :
    ArmsDerivation capabilities tokens arms rest → List Nat
  | .done _ => []
  | .newline _ others => others.startLines
  | @ArmsDerivation.elif _ _ line _ _ _ _ _ _ _ body others =>
    line :: (body.startLines ++ others.startLines)
  | @ArmsDerivation.otherwise _ line _ _ _ body => line :: body.startLines

def BodyDerivation.startLines {tokens rest : List Token} {block : Block} :
    BodyDerivation capabilities tokens block rest → List Nat
  | .intro inner => inner.startLines

end

theorem EndsStatement.leadingLines_eq {tokens rest : List Token} (h : EndsStatement tokens rest)
    (inside : Bool) : leadingLines inside tokens = leadingLines false rest := by
  cases h with
  | newline | dedent | eof => rfl

-- A statement stands behind no visible token, and a body behind its header.
mutual

theorem BlockDerivation.leadingLines_eq {tokens rest : List Token} {block : Block} :
    (derivation : BlockDerivation capabilities tokens block rest) →
      leadingLines false tokens = derivation.startLines ++ leadingLines false rest
  | .nil _ => rfl
  | .newline others => others.leadingLines_eq
  | .cons first others => by
    rw [first.leadingLines_eq, others.leadingLines_eq, ← List.append_assoc]
    rfl

theorem StatementDerivation.leadingLines_eq {tokens rest : List Token} {statement : Statement} :
    (derivation : StatementDerivation capabilities tokens statement rest) →
      leadingLines false tokens = derivation.startLines ++ leadingLines false rest
  | .command _ ends | .call _ ends => congrArg (_ :: ·) (ends.leadingLines_eq true)
  | .doTimes _ _ body => congrArg (_ :: ·) body.leadingLines_eq
  | .whileDo _ body => congrArg (_ :: ·) body.leadingLines_eq
  | .define body => congrArg (_ :: ·) body.leadingLines_eq
  | .ifElse _ body arms => by
    have hbody := body.leadingLines_eq
    rw [arms.leadingLines_eq, ← List.append_assoc] at hbody
    exact congrArg (_ :: ·) hbody

theorem ArmsDerivation.leadingLines_eq {tokens rest : List Token} {arms : Arms} :
    (derivation : ArmsDerivation capabilities tokens arms rest) →
      leadingLines false tokens = derivation.startLines ++ leadingLines false rest
  | .done _ => rfl
  | .newline _ others => others.leadingLines_eq
  | .elif _ body others => by
    have hbody := body.leadingLines_eq
    rw [others.leadingLines_eq, ← List.append_assoc] at hbody
    exact congrArg (_ :: ·) hbody
  | .otherwise body => congrArg (_ :: ·) body.leadingLines_eq

theorem BodyDerivation.leadingLines_eq {tokens rest : List Token} {block : Block} :
    (derivation : BodyDerivation capabilities tokens block rest) →
      leadingLines true tokens = derivation.startLines ++ leadingLines false rest
  | .intro inner => inner.leadingLines_eq

end

mutual

/-- The statements of a tree are among those that begin. -/
theorem BlockDerivation.sublist_startLines {tokens rest : List Token} {block : Block}
    (depth : Nat) :
    (derivation : BlockDerivation capabilities tokens block rest) →
      ((Block.nodes depth block).map fun node => node.2.line).Sublist derivation.startLines
  | .nil _ => List.Sublist.refl _
  | .newline others => others.sublist_startLines depth
  | .cons first others => by
    rw [Block.nodes, List.map_append]
    exact (first.sublist_startLines depth).append (others.sublist_startLines depth)

theorem StatementDerivation.sublist_startLines {tokens rest : List Token} {statement : Statement}
    (depth : Nat) : (derivation : StatementDerivation capabilities tokens statement rest) →
      ((statement.nodes depth).map fun node => node.2.line).Sublist derivation.startLines
  | .command _ _ | .call _ _ => List.Sublist.refl _
  | .doTimes _ _ body | .whileDo _ body | .define body =>
    (body.sublist_startLines (depth + 1)).cons_cons _
  | .ifElse _ body arms => by
    rw [Statement.nodes, List.map_cons, List.map_append]
    exact ((body.sublist_startLines (depth + 1)).append
      (arms.sublist_startLines (depth + 1))).cons_cons _

theorem ArmsDerivation.sublist_startLines {tokens rest : List Token} {arms : Arms}
    (depth : Nat) : (derivation : ArmsDerivation capabilities tokens arms rest) →
      ((arms.nodes depth).map fun node => node.2.line).Sublist derivation.startLines
  | .done _ => List.Sublist.refl _
  | .newline _ others => others.sublist_startLines depth
  | .elif _ body others => by
    rw [Arms.nodes, List.map_append]
    exact ((body.sublist_startLines depth).append (others.sublist_startLines depth)).cons _
  | .otherwise body => (body.sublist_startLines depth).cons _

theorem BodyDerivation.sublist_startLines {tokens rest : List Token} {block : Block}
    (depth : Nat) : (derivation : BodyDerivation capabilities tokens block rest) →
      ((Block.nodes depth block).map fun node => node.2.line).Sublist derivation.startLines
  | .intro inner => inner.sublist_startLines depth

end

namespace ProgramDerivation

variable {tokens : List Token} {block : Block}

/-- A program begins on the lines on which its tokens do. -/
theorem leadingLines_eq (derivation : ProgramDerivation capabilities tokens block) :
    leadingLines false tokens = derivation.root.startLines :=
  derivation.root.leadingLines_eq.trans (List.append_nil _)

theorem pairwise_startLines (derivation : ProgramDerivation capabilities tokens block)
    (h : BeginInOrder tokens) : derivation.root.startLines.Pairwise (· < ·) :=
  derivation.leadingLines_eq ▸ h.pairwise

theorem mem_startLines_iff (derivation : ProgramDerivation capabilities tokens block)
    (h : BeginInOrder tokens) (line : Nat) : line ∈ derivation.root.startLines ↔
      ∃ token ∈ tokens, token.kind.isVisible = true ∧ token.line = line := by
  rw [← derivation.leadingLines_eq]
  refine ⟨exists_of_mem_leadingLines, ?_⟩
  rintro ⟨token, hmem, hvisible, rfl⟩
  exact h.mem token hmem hvisible

theorem sublist_startLines (derivation : ProgramDerivation capabilities tokens block) :
    (block.statements.map Statement.line).Sublist derivation.root.startLines := by
  rw [Block.statements, List.map_map]
  exact derivation.root.sublist_startLines 0

end ProgramDerivation

end Grammar

theorem Block.sublist_undefinedCalls (block : Block) :
    (block.undefinedCalls.map Prod.snd).Sublist (block.statements.map Statement.line) := by
  have hcalls (statements : List Statement) :
      ((statements.filterMap Statement.call?).map Prod.snd).Sublist
        (statements.map Statement.line) := by
    induction statements with
    | nil => exact List.Sublist.refl _
    | cons statement statements ih =>
      cases statement with
      | call name line => exact ih.cons_cons line
      | _ => exact ih.cons _
  exact (List.filter_sublist.map Prod.snd).trans (hcalls block.statements)

open Grammar

theorem beginInOrder_ofSource (source : String) :
    BeginInOrder (TokenStream.ofSource source).toList :=
  BeginInOrder.scanLines Margin.initial 0 (sourceLines source) (endLine source)

/-- The statements of the tree of a source text stand on ascending lines. -/
theorem pairwise_line_of_parseProgram {capabilities : Capabilities} {source : String}
    {block : Block} (h : parseProgram capabilities source = .ok block) :
    block.statements.Pairwise fun first second => first.line < second.line := by
  obtain ⟨derivation⟩ := parseProgram_eq_ok_iff.mp h
  have hpairwise := derivation.pairwise_startLines (beginInOrder_ofSource source)
  exact List.pairwise_map.mp (hpairwise.sublist derivation.sublist_startLines)

/-- The statements and the arms of a tree, each before those inside it, stand on ascending lines,
    and these are the lines of the source text with a visible token. So undefined calls are reported
    by ascending lines. -/
theorem startLines_of_parseProgram {capabilities : Capabilities} {source : String} {block : Block}
    (h : parseProgram capabilities source = .ok block) :
    Nonempty (ProgramDerivation capabilities (TokenStream.ofSource source).toList block) ∧
    (∀ derivation : ProgramDerivation capabilities (TokenStream.ofSource source).toList block,
      derivation.root.startLines.Pairwise (· < ·) ∧
      ∀ line, line ∈ derivation.root.startLines ↔
        ∃ token ∈ (TokenStream.ofSource source).toList,
          token.kind.isVisible = true ∧ token.line = line) ∧
    (block.undefinedCalls.map Prod.snd).Pairwise (· < ·) := by
  have hbegin := beginInOrder_ofSource source
  have hlines := pairwise_line_of_parseProgram h
  refine ⟨parseProgram_eq_ok_iff.mp h, fun derivation => ?_, ?_⟩
  · exact ⟨derivation.pairwise_startLines hbegin, derivation.mem_startLines_iff hbegin⟩
  · exact (List.pairwise_map.mpr hlines).sublist block.sublist_undefinedCalls

/-- Blank lines, comments and lines of skipped glyphs are left out, and an `else` is not. -/
theorem startLines_of_scattered_arms :
    parseProgram Capabilities.standard
      "if facing_east:\n  move\n\n# no\nelif facing_west:\n  jump\nelse:\n  ;\n  leap" =
        .ok [.ifElse (.condition "facing_east") [.command (.command "move") 1]
          (.elif (.condition "facing_west") 4 [.call "jump" 5] (.otherwise [.call "leap" 8])) 0] ∧
    (∃ derivation : ProgramDerivation Capabilities.standard (TokenStream.ofSource
        "if facing_east:\n  move\n\n# no\nelif facing_west:\n  jump\nelse:\n  ;\n  leap").toList
        [.ifElse (.condition "facing_east") [.command (.command "move") 1]
          (.elif (.condition "facing_west") 4 [.call "jump" 5] (.otherwise [.call "leap" 8])) 0],
      derivation.root.startLines.Pairwise (· < ·) ∧ 6 ∈ derivation.root.startLines ∧
        7 ∉ derivation.root.startLines) ∧
    ([5, 8] : List Nat).Pairwise (· < ·) := by
  have hparse : parseProgram Capabilities.standard
      "if facing_east:\n  move\n\n# no\nelif facing_west:\n  jump\nelse:\n  ;\n  leap" =
        .ok [.ifElse (.condition "facing_east") [.command (.command "move") 1]
          (.elif (.condition "facing_west") 4 [.call "jump" 5] (.otherwise [.call "leap" 8])) 0] :=
    rfl
  obtain ⟨⟨derivation⟩, hlines, hcalls⟩ := startLines_of_parseProgram hparse
  obtain ⟨hpairwise, hmem⟩ := hlines derivation
  refine ⟨hparse, ⟨derivation, hpairwise, (hmem 6).mpr ?_, fun h => ?_⟩, hcalls⟩
  · decide
  · have hseven := (hmem 7).mp h
    revert hseven
    decide

end Karel
