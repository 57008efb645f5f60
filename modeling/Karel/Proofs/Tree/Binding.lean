import Karel.Proofs.Layout.Words
import Karel.Proofs.Parse.Agreement
import Karel.Proofs.SourceText.LineNumbers

/-!
# Binding

The tree of a source text is bound to the capabilities that it was read against: what it runs is a
command of the robot, what it tests is a condition, and what it calls is no command. All names in
it are identifiers. So the trees that programs have are well-formed trees.

## Main definitions

- `Block.names` — the names in a tree
- `Grammar.Named` — tokens whose identifiers are names

## Main results

- `Grammar.BlockDerivation.wellFormed` — a phrase derived from named tokens is well formed
- `Block.isName_of_mem_names` — the names in a well-formed tree
- `wellFormed_of_parseProgram` — the tree of a source text is well formed
-/

namespace Karel

mutual

/-- The names in a statement: of commands, conditions and procedures. -/
def Statement.names : Statement → List String
  | .command callable _ => [callable.name]
  | .call name _ => [name]
  | .doTimes _ _ body _ => Block.names body
  | .ifElse callable body arms _ => callable.name :: (Block.names body ++ arms.names)
  | .whileDo callable body _ => callable.name :: Block.names body
  | .define name body _ => name :: Block.names body

/-- The names in the arms of an `if`. -/
def Arms.names : Arms → List String
  | .done => []
  | .otherwise body => Block.names body
  | .elif callable _ body next => callable.name :: (Block.names body ++ next.names)

/-- The names in a block, from left to right. -/
def Block.names : List Statement → List String
  | [] => []
  | statement :: rest => statement.names ++ Block.names rest

end

variable {capabilities : Capabilities}

mutual

theorem Statement.isName_of_mem_names : (statement : Statement) →
    statement.WellFormed capabilities → ∀ name ∈ statement.names, isName name = true
  | .command callable _, h => List.forall_mem_singleton.mpr (Callable.isName_of_isCommandOf h)
  | .call _ _, ⟨hname, _⟩ => List.forall_mem_singleton.mpr hname
  | .doTimes _ _ body _, ⟨_, _, _, hbody⟩ => Block.isName_of_mem_names body hbody
  | .ifElse callable body arms _, ⟨hcallable, hbody, harms⟩ => by
    have hname := Callable.isName_of_isConditionOf hcallable
    rw [Statement.names, List.forall_mem_cons, List.forall_mem_append]
    exact ⟨hname, Block.isName_of_mem_names body hbody, arms.isName_of_mem_names harms⟩
  | .whileDo callable body _, ⟨hcallable, hbody⟩ =>
    List.forall_mem_cons.mpr
      ⟨Callable.isName_of_isConditionOf hcallable, Block.isName_of_mem_names body hbody⟩
  | .define _ body _, ⟨hname, hbody⟩ =>
    List.forall_mem_cons.mpr ⟨hname, Block.isName_of_mem_names body hbody⟩

theorem Arms.isName_of_mem_names : (arms : Arms) →
    arms.WellFormed capabilities → ∀ name ∈ arms.names, isName name = true
  | .done, _ => by simp [Arms.names]
  | .otherwise body, hbody => Block.isName_of_mem_names body hbody
  | .elif callable _ body next, ⟨hcallable, hbody, hnext⟩ => by
    have hname := Callable.isName_of_isConditionOf hcallable
    rw [Arms.names, List.forall_mem_cons, List.forall_mem_append]
    exact ⟨hname, Block.isName_of_mem_names body hbody, next.isName_of_mem_names hnext⟩

/-- The names in a well-formed tree are names. -/
theorem Block.isName_of_mem_names : (block : List Statement) →
    Block.WellFormed capabilities block → ∀ name ∈ Block.names block, isName name = true
  | [], _ => by simp [Block.names]
  | statement :: rest, ⟨hstatement, hrest⟩ =>
    List.forall_mem_append.mpr
      ⟨statement.isName_of_mem_names hstatement, Block.isName_of_mem_names rest hrest⟩

end

/-- A number that has a value is below the limit. -/
theorem TokenKind.lt_numberLimit_of_value? {kind : TokenKind} {count : Nat}
    (h : kind.value? = some count) : count < numberLimit := by
  cases kind with
  | number digits =>
    rw [TokenKind.value?] at h
    split at h
    · next hlt => exact Option.some.inj h ▸ hlt
    · cases h
  | _ => cases h

namespace Grammar

/-- The identifiers among some tokens are names. -/
def Named (tokens : List Token) : Prop :=
  ∀ name line, ⟨.identifier name, line⟩ ∈ tokens → isName name = true

namespace Named

variable {tokens rest : List Token} {token : Token} {name : String} {line : Nat}

theorem tail (h : Named (token :: tokens)) : Named tokens := by
  intro name line hmem
  exact h name line (List.mem_cons_of_mem token hmem)

theorem isName (h : Named (⟨.identifier name, line⟩ :: tokens)) : isName name = true :=
  h name line List.mem_cons_self

theorem of_consumes (h : Named tokens) (hconsumes : Consumes tokens rest) : Named rest := by
  obtain ⟨used, rfl, -⟩ := hconsumes
  intro name line hmem
  exact h name line (List.mem_append_right used hmem)

end Named

mutual

/-- A block that is derived from named tokens is well formed. -/
theorem BlockDerivation.wellFormed {tokens rest : List Token} {block : Block} :
    BlockDerivation capabilities tokens block rest → Named tokens →
      Block.WellFormed capabilities block
  | .nil _, _ => trivial
  | .newline others, h => others.wellFormed h.tail
  | .cons first others, h => ⟨first.wellFormed h, others.wellFormed (h.of_consumes first.consumes)⟩

theorem StatementDerivation.wellFormed {tokens rest : List Token} {statement : Statement} :
    StatementDerivation capabilities tokens statement rest → Named tokens →
      statement.WellFormed capabilities
  | .command known _, _ => known
  | .call unknown _, h => ⟨h.isName, unknown⟩
  | .doTimes value positive body, h =>
    ⟨rfl, positive, TokenKind.lt_numberLimit_of_value? value, body.wellFormed h.tail.tail⟩
  | .ifElse known body arms, h =>
    ⟨known, body.wellFormed h.tail.tail, arms.wellFormed (h.tail.tail.of_consumes body.consumes)⟩
  | .whileDo known body, h => ⟨known, body.wellFormed h.tail.tail⟩
  | .define body, h => ⟨h.tail.isName, body.wellFormed h.tail.tail⟩

theorem ArmsDerivation.wellFormed {tokens rest : List Token} {arms : Arms} :
    ArmsDerivation capabilities tokens arms rest → Named tokens → arms.WellFormed capabilities
  | .done _, _ => trivial
  | .newline _ others, h => others.wellFormed h.tail
  | .elif known body others, h =>
    ⟨known, body.wellFormed h.tail.tail,
      others.wellFormed (h.tail.tail.of_consumes body.consumes)⟩
  | .otherwise body, h => body.wellFormed h.tail

theorem BodyDerivation.wellFormed {tokens rest : List Token} {block : Block} :
    BodyDerivation capabilities tokens block rest → Named tokens →
      Block.WellFormed capabilities block
  | .intro inner, h => inner.wellFormed h.tail.tail.tail

end

end Grammar

/-- The identifiers of a source text are names, to the end of the input. -/
theorem named_toList (source : String) : Grammar.Named (TokenStream.ofSource source).toList := by
  intro name line hmem
  rcases List.mem_append.mp hmem with hmem | hmem
  · exact isName_of_mem_scan hmem
  · cases List.mem_singleton.mp hmem

/-- The tree of a source text is well formed: at any depth its commands and conditions are offered
    by the robot, its calls are not of commands, whatever procedures it declares, and its counts are
    positive and below the limit. Each name in it is an identifier. -/
theorem wellFormed_of_parseProgram {source : String} {block : Block}
    (h : parseProgram capabilities source = .ok block) :
    Block.WellFormed capabilities block ∧ ∀ name ∈ Block.names block, IsIdentifier name := by
  obtain ⟨derivation⟩ := parseProgram_eq_ok_iff.mp h
  have hwell := derivation.root.wellFormed (named_toList source)
  refine ⟨hwell, fun name hmem => ?_⟩
  exact isName_iff_isIdentifier.mp (Block.isName_of_mem_names block hwell name hmem)

/-- A procedure may be declared under the name of a command, and the name still runs the command. -/
theorem wellFormed_of_shadowed_command :
    parseProgram Capabilities.standard
        "define move:\n  _j\nif facing_east:\n  do 4294967295:\n    move\nelif facing_west:\n  h2"
      = .ok [.define "move" [.call "_j" 1] 0,
          .ifElse (.condition "facing_east")
            [.doTimes .repetition 4294967295 [.command (.command "move") 4] 3]
            (.elif (.condition "facing_west") 5 [.call "h2" 6] .done) 2] ∧
    Block.WellFormed Capabilities.standard
      [.define "move" [.call "_j" 1] 0,
        .ifElse (.condition "facing_east")
          [.doTimes .repetition 4294967295 [.command (.command "move") 4] 3]
          (.elif (.condition "facing_west") 5 [.call "h2" 6] .done) 2] ∧
    ∀ name ∈ ["move", "_j", "facing_east", "move", "facing_west", "h2"],
      IsIdentifier name := by
  have hparse : parseProgram Capabilities.standard
      "define move:\n  _j\nif facing_east:\n  do 4294967295:\n    move\nelif facing_west:\n  h2"
    = .ok [.define "move" [.call "_j" 1] 0,
        .ifElse (.condition "facing_east")
          [.doTimes .repetition 4294967295 [.command (.command "move") 4] 3]
          (.elif (.condition "facing_west") 5 [.call "h2" 6] .done) 2] := rfl
  exact ⟨hparse, wellFormed_of_parseProgram hparse⟩

end Karel
