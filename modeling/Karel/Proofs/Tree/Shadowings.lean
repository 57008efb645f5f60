import Karel.Command
import Karel.Proofs.Outline.Headings
import Karel.Proofs.Parse.Reporting
import Karel.Proofs.Parse.Viability
import Karel.Proofs.Tree.Addresses

/-!
# Warnings of shadowed commands

Each warning that is noted while a source text is parsed is about a `define` with the name of a
command behind it. All such pairs are warned of up to the token with which the text is rejected, if
it is, and none behind. The declarations of a tree are warned of in their order in the tree.

## Main definitions

- `warnings`, `shadowingNote` — the warnings on a source text, with their fields
- `Grammar.Offends` — an error is about the token behind some others

## Main results

- `Grammar.BlockDerivation.shadowedPairs_eq` and its companions — the declarations of a phrase
- `warnings_tell_shadowed_commands` — the warnings on a source text
-/

namespace Karel

/-- What a statement that declares a procedure under the name of a command is reported as. -/
def Statement.shadowing? (capabilities : Capabilities) : Statement → Option Shadowing
  | define name _ line =>
    if name ∈ capabilities.commands then some { procedure := name, line } else none
  | _ => none

theorem Statement.shadowing?_eq_some_iff {capabilities : Capabilities} {statement : Statement}
    {shadowing : Shadowing} :
    statement.shadowing? capabilities = some shadowing ↔
      ∃ body, statement = .define shadowing.procedure body shadowing.line ∧
        shadowing.procedure ∈ capabilities.commands := by
  cases statement with
  | define name body line =>
    by_cases hmem : name ∈ capabilities.commands
    · rw [shadowing?, if_pos hmem]
      constructor
      · intro h
        obtain rfl := Option.some.inj h
        exact ⟨body, rfl, hmem⟩
      · rintro ⟨body', h, -⟩
        obtain ⟨rfl, -, rfl⟩ := Statement.define.inj h
        rfl
    · rw [shadowing?, if_neg hmem]
      constructor
      · intro h
        cases h
      · rintro ⟨body', h, hcommand⟩
        obtain ⟨rfl, -, -⟩ := Statement.define.inj h
        exact absurd hcommand hmem
  | _ => simp [shadowing?]

namespace Grammar

variable {capabilities : Capabilities}

theorem EndsStatement.shadowedPairs_eq {tokens rest : List Token} (h : EndsStatement tokens rest) :
    shadowedPairs capabilities tokens = shadowedPairs capabilities rest := by
  cases h with
  | newline => exact shadowedPairs_cons_of_ne (by simp)
  | dedent | eof => rfl

mutual

/-- The pairs in a phrase are the declarations in its tree, and behind them those in the rest. -/
theorem BlockDerivation.shadowedPairs_eq {tokens rest : List Token} {block : Block} (depth : Nat) :
    BlockDerivation capabilities tokens block rest →
      shadowedPairs capabilities tokens =
        ((Block.nodes depth block).filterMap fun node => node.2.shadowing? capabilities) ++
          shadowedPairs capabilities rest
  | .nil _ => rfl
  | .newline others => by
    rw [shadowedPairs_cons_of_ne (by simp), others.shadowedPairs_eq depth]
  | .cons first others => by
    rw [Block.nodes, List.filterMap_append, List.append_assoc, ← others.shadowedPairs_eq depth,
      first.shadowedPairs_eq depth]

theorem StatementDerivation.shadowedPairs_eq {tokens rest : List Token} {statement : Statement}
    (depth : Nat) : StatementDerivation capabilities tokens statement rest →
      shadowedPairs capabilities tokens =
        ((statement.nodes depth).filterMap fun node => node.2.shadowing? capabilities) ++
          shadowedPairs capabilities rest
  | .command _ ends => by
    rw [shadowedPairs_cons_of_ne (by simp), ends.shadowedPairs_eq]
    rfl
  | .call _ ends => by
    rw [shadowedPairs_cons_of_ne (by simp), ends.shadowedPairs_eq]
    rfl
  | .doTimes _ _ body => by
    rw [shadowedPairs_cons_of_ne (by simp), shadowedPairs_cons_of_ne (by simp),
      body.shadowedPairs_eq (depth + 1)]
    rfl
  | .whileDo _ body => by
    rw [shadowedPairs_cons_of_ne (by simp), shadowedPairs_cons_of_ne (by simp),
      body.shadowedPairs_eq (depth + 1)]
    rfl
  | .ifElse _ body arms => by
    rw [shadowedPairs_cons_of_ne (by simp), shadowedPairs_cons_of_ne (by simp),
      body.shadowedPairs_eq (depth + 1), arms.shadowedPairs_eq (depth + 1), ← List.append_assoc,
      ← List.filterMap_append]
    rfl
  | @StatementDerivation.define _ name line nameLine tokens rest block body => by
    rw [shadowedPairs_define, body.shadowedPairs_eq (depth + 1), ← List.append_assoc,
      Statement.nodes, List.filterMap_cons]
    by_cases hmem : name ∈ capabilities.commands
    · simp [Statement.shadowing?, hmem]
    · simp [Statement.shadowing?, hmem]

theorem ArmsDerivation.shadowedPairs_eq {tokens rest : List Token} {arms : Arms} (depth : Nat) :
    ArmsDerivation capabilities tokens arms rest →
      shadowedPairs capabilities tokens =
        ((arms.nodes depth).filterMap fun node => node.2.shadowing? capabilities) ++
          shadowedPairs capabilities rest
  | .done _ => rfl
  | .newline _ others => by
    rw [shadowedPairs_cons_of_ne (by simp), others.shadowedPairs_eq depth]
  | .elif _ body others => by
    rw [shadowedPairs_cons_of_ne (by simp), shadowedPairs_cons_of_ne (by simp), Arms.nodes,
      List.filterMap_append, List.append_assoc, ← others.shadowedPairs_eq depth,
      body.shadowedPairs_eq depth]
  | .otherwise body => by
    rw [shadowedPairs_cons_of_ne (by simp), body.shadowedPairs_eq depth]
    rfl

theorem BodyDerivation.shadowedPairs_eq {tokens rest : List Token} {block : Block} (depth : Nat) :
    BodyDerivation capabilities tokens block rest →
      shadowedPairs capabilities tokens =
        ((Block.nodes depth block).filterMap fun node => node.2.shadowing? capabilities) ++
          shadowedPairs capabilities rest
  | .intro inner => by
    rw [shadowedPairs_cons_of_ne (by simp), shadowedPairs_cons_of_ne (by simp),
      shadowedPairs_cons_of_ne (by simp), inner.shadowedPairs_eq depth]
    rw [shadowedPairs_cons_of_ne (by simp)]

end

/-- An error is about the token behind some others: those are taken in, and what is awaited behind
    them is not that token, which is the fault of the error. -/
def Offends (capabilities : Capabilities) (front : List Token) (error : ParseError) : Prop :=
  ∃ reached, Outlook.start.run capabilities front = .ok reached ∧
    reached.step capabilities error.found.kind = .error error.fault

variable {front : List Token} {error : ParseError}

/-- No program begins with a token that offends and those in front of it. -/
theorem Offends.not_isViable (h : Offends capabilities front error) :
    ¬ IsViable capabilities (front ++ [error.found]) := by
  obtain ⟨reached, hfront, hfault⟩ := h
  have hfound : Outlook.start.run capabilities (front ++ [error.found]) = .error error := by
    rw [Outlook.run_append hfront, Outlook.run_cons_of_error hfault]
  exact not_isViable_of_run hfound

/-- Up to a token that offends, the tokens begin a program, if there are conditions to use in it. -/
theorem Offends.isViable (h : Offends capabilities front error)
    (hconditions : capabilities.conditions ≠ []) (hends : ∀ token ∈ front, token.kind ≠ .eof) :
    IsViable capabilities front := by
  obtain ⟨reached, hfront, -⟩ := h
  have hawaited : reached.awaited ≠ .nothing :=
    Outlook.awaited_ne_nothing_of_run (by simp [Outlook.start]) hends hfront
  exact isViable_of_run hconditions hfront hawaited

end Grammar

open Grammar

variable {capabilities : Capabilities} {source : String} {block : Block} {error : ParseError}

/-- In front of a token of a source text the input does not end. -/
theorem kind_ne_eof_of_toList_eq {front behind : List Token} {found : Token}
    (h : (TokenStream.ofSource source).toList = front ++ found :: behind) :
    ∀ token ∈ front, token.kind ≠ .eof := by
  have hscan : scan source = front ++ (found :: behind).dropLast := by
    rw [← List.dropLast_append_of_ne_nil (List.cons_ne_nil _ _), ← h]
    exact List.dropLast_concat.symm
  intro token hmem
  apply kind_ne_eof_of_mem_scan
  rw [hscan]
  exact List.mem_append_left _ hmem

/-- The warning of a shadowed command: its message, and its further fields with their values. -/
def shadowingNote (shadowing : Shadowing) : String × List (String × String) :=
  ("procedure shares its name with a command; calls will run the command",
    [("procedure", shadowing.procedure), ("line", toString (shadowing.line + 1))])

/-- A warning tells which declaration it is about. -/
theorem shadowingNote_injective : Function.Injective shadowingNote := by
  rintro ⟨name, line⟩ ⟨other, otherLine⟩ h
  simp only [shadowingNote, Prod.mk.injEq, List.cons.injEq, true_and, and_true] at h
  obtain ⟨rfl, hline⟩ := h
  rw [Nat.succ.inj (eq_of_repr_eq hline)]

/-- The warnings that are noted while a source text is parsed, each with its message and fields. -/
def warnings (capabilities : Capabilities) (source : String) :
    List (String × List (String × String)) :=
  ((parseEvents capabilities source).filter fun event => event.level = .warn).map fun event =>
    (event.message, event.details)

/-- Nothing but a shadowed command is warned of. -/
theorem warnings_eq (capabilities : Capabilities) (source : String) :
    warnings capabilities source =
      (replyTo capabilities source).shadowings.map shadowingNote := by
  have hshadowed (shadowings : List Shadowing) :
      (shadowings.map Event.shadowed).filter (fun event => event.level = .warn) =
        shadowings.map Event.shadowed := by
    rw [List.filter_eq_self]
    intro event hmem
    obtain ⟨shadowing, -, rfl⟩ := List.mem_map.mp hmem
    rfl
  have hevents : (parseEvents capabilities source).filter (fun event => event.level = .warn) =
      (replyTo capabilities source).shadowings.map Event.shadowed := by
    simp only [parseEvents, List.filter_append, hshadowed]
    cases (replyTo capabilities source).result with
    | ok block => exact List.append_nil _
    | error error => exact List.append_nil _
  rw [warnings, hevents, List.map_map]
  rfl

theorem warnings_eq_due (capabilities : Capabilities) (source : String) :
    warnings capabilities source =
      (Outlook.start.due capabilities (TokenStream.ofSource source).toList).map shadowingNote := by
  rw [warnings_eq]
  exact congrArg _ (Parse.shadowings_program fun _ hmem => kind_ne_eof_of_mem_scan hmem)

/-- A source text that is rejected has an error about one of its tokens, and is warned of in front
    of that one. -/
theorem exists_offends_of_parseProgram_error (h : parseProgram capabilities source = .error error) :
    ∃ front behind, (TokenStream.ofSource source).toList = front ++ error.found :: behind ∧
      Offends capabilities front error ∧
      warnings capabilities source = (shadowedPairs capabilities front).map shadowingNote := by
  obtain ⟨front, behind, reached, htokens, hfront, hfault⟩ :=
    Outlook.exists_of_run_eq_error (Parse.run_toList_eq_error_iff.mpr h)
  refine ⟨front, behind, htokens, ⟨reached, hfront, hfault⟩, ?_⟩
  rw [warnings_eq_due, htokens, Outlook.due, Outlook.accepted_append hfront,
    Outlook.accepted_cons_of_error hfault, List.append_nil]

/-- A source text that is accepted is warned of throughout. -/
theorem warnings_of_parseProgram (h : parseProgram capabilities source = .ok block) :
    warnings capabilities source =
      (shadowedPairs capabilities (TokenStream.ofSource source).toList).map shadowingNote := by
  have hrun : Outlook.start.run capabilities (TokenStream.ofSource source).toList =
      .ok Outlook.finished := by
    rw [Parse.run_toList, h]
    rfl
  have haccepted := Outlook.accepted_append hrun []
  rw [List.append_nil] at haccepted
  rw [warnings_eq_due, Outlook.due, haccepted, Outlook.accepted, List.append_nil]

/-- The declarations in the tree of a source text that call for a warning, by their addresses. -/
theorem warnings_inPreorder (h : parseProgram capabilities source = .ok block) :
    InPreorder (fun address warning => ∃ name body line,
        block.at? address = some (.define name body line) ∧ name ∈ capabilities.commands ∧
          warning = shadowingNote { procedure := name, line })
      (warnings capabilities source) := by
  obtain ⟨derivation⟩ := parseProgram_eq_ok_iff.mp h
  have hpairs : shadowedPairs capabilities (TokenStream.ofSource source).toList =
      block.statements.filterMap (Statement.shadowing? capabilities) := by
    rw [derivation.root.shadowedPairs_eq 0, Block.statements, List.filterMap_map]
    exact List.append_nil _
  rw [warnings_of_parseProgram h, hpairs, List.map_filterMap]
  apply (block.statements_inPreorder.filterMap _).congr
  intro address warning
  simp only [Option.map_eq_some_iff, Statement.shadowing?_eq_some_iff]
  constructor
  · rintro ⟨_, haddress, ⟨name, line⟩, ⟨body, rfl, hcommand⟩, rfl⟩
    exact ⟨name, body, line, haddress, hcommand, rfl⟩
  · rintro ⟨name, body, line, haddress, hcommand, rfl⟩
    exact ⟨_, haddress, ⟨name, line⟩, ⟨body, rfl, hcommand⟩, rfl⟩

/-- A rejected program is warned of shadowed commands in front of the first token at fault, and of
    none behind it. What is in front of that token begins a program, if there are conditions to use
    in it, and together with that token it does not. An accepted program is warned of throughout,
    which is to say of its declarations under the name of a command, in their order in its tree. -/
theorem warnings_tell_shadowed_commands (capabilities : Capabilities) (source : String) :
    (∀ error, parseProgram capabilities source = .error error →
      ∃ front behind, (TokenStream.ofSource source).toList = front ++ error.found :: behind ∧
        Offends capabilities front error ∧
        (capabilities.conditions ≠ [] →
          IsViable capabilities front ∧ ¬ IsViable capabilities (front ++ [error.found])) ∧
        warnings capabilities source = (shadowedPairs capabilities front).map shadowingNote) ∧
    ∀ block, parseProgram capabilities source = .ok block →
      warnings capabilities source =
        (shadowedPairs capabilities (TokenStream.ofSource source).toList).map shadowingNote ∧
      InPreorder (fun address warning => ∃ name body line,
          block.at? address = some (.define name body line) ∧ name ∈ capabilities.commands ∧
            warning = shadowingNote { procedure := name, line })
        (warnings capabilities source) := by
  refine ⟨?_, fun block h => ⟨warnings_of_parseProgram h, warnings_inPreorder h⟩⟩
  intro error h
  obtain ⟨front, behind, htokens, hoffends, hwarnings⟩ := exists_offends_of_parseProgram_error h
  refine ⟨front, behind, htokens, hoffends, ?_, hwarnings⟩
  intro hconditions
  exact ⟨hoffends.isViable hconditions (kind_ne_eof_of_toList_eq htokens), hoffends.not_isViable⟩

/-- A declaration inside an arm is warned of. Behind a missing colon there are no more warnings, but
    there is one of the name in front of it. -/
theorem warnings_up_to_missing_colon :
    (∃ block address body, parseProgram Capabilities.standard
        "if facing_east:\n  go\nelse:\n  define move:\n    turnoff\n" = .ok block ∧
      warnings Capabilities.standard
        "if facing_east:\n  go\nelse:\n  define move:\n    turnoff\n" =
          [shadowingNote { procedure := "move", line := 3 }] ∧
      block.at? address = some (.define "move" body 3)) ∧
    parseProgram Capabilities.standard
        "define move:\n  go\ndefine turnoff\ndefine turnleft:\n  go\n" =
      .error { fault := .expectedColon, found := ⟨.newline, 2⟩ } ∧
    ∃ front, IsViable Capabilities.standard front ∧
      ¬ IsViable Capabilities.standard (front ++ [⟨.newline, 2⟩]) ∧
      shadowedPairs Capabilities.standard front =
        [{ procedure := "move", line := 0 }, { procedure := "turnoff", line := 2 }] := by
  let block : Block := [.ifElse (.condition "facing_east") [.call "go" 1]
    (.otherwise [.define "move" [.command (.command "turnoff") 4] 3]) 0]
  have haccepted : parseProgram Capabilities.standard
      "if facing_east:\n  go\nelse:\n  define move:\n    turnoff\n" = .ok block := rfl
  have hrejected : parseProgram Capabilities.standard
      "define move:\n  go\ndefine turnoff\ndefine turnleft:\n  go\n" =
        .error { fault := .expectedColon, found := ⟨.newline, 2⟩ } := rfl
  obtain ⟨hpairs, hplaced⟩ := (warnings_tell_shadowed_commands _ _).2 block haccepted
  have hnote : warnings Capabilities.standard
      "if facing_east:\n  go\nelse:\n  define move:\n    turnoff\n" =
        [shadowingNote { procedure := "move", line := 3 }] := by
    rw [hpairs]
    rfl
  have hmem : shadowingNote { procedure := "move", line := 3 } ∈ warnings Capabilities.standard
      "if facing_east:\n  go\nelse:\n  define move:\n    turnoff\n" := by
    rw [hnote]
    exact List.mem_singleton_self _
  obtain ⟨address, name, body, line, haddress, -, hwarning⟩ := hplaced.mem_iff.mp hmem
  obtain ⟨rfl, rfl⟩ := Shadowing.mk.inj (shadowingNote_injective hwarning)
  obtain ⟨front, behind, -, -, hviable, hwarnings⟩ :=
    (warnings_tell_shadowed_commands _ _).1 _ hrejected
  obtain ⟨hfront, hfound⟩ := hviable (by decide)
  have hnotes : warnings Capabilities.standard
      "define move:\n  go\ndefine turnoff\ndefine turnleft:\n  go\n" =
        [{ procedure := "move", line := 0 }, { procedure := "turnoff", line := 2 }].map
          shadowingNote := by
    rw [warnings_eq]
    rfl
  have hshadowed := List.map_injective_iff.mpr shadowingNote_injective
    (hwarnings.symm.trans hnotes)
  exact ⟨⟨block, address, body, haccepted, hnote, haddress⟩, hrejected, front, hfront, hfound,
    hshadowed⟩

end Karel
