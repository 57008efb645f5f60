import Karel.Proofs.Parse.Following

/-!
# What the vocabulary decides

A program that is read against one robot can be read against another one that makes the same tests
and more. What the robots do without being asked for a test only decides which names run a command
and which call a procedure: the tree is the same but for that, and where the robots make the same
tests, so is every error.

## Main definitions

- `Block.unbound` — a tree in which the names that run are not yet bound

## Main results

- `Grammar.BlockDerivation.rebind` and its companions — a derivation under more conditions
- `Grammar.Outlook.run_eq_of_conditions` — commands do not change what is awaited
- `parseProgram_of_conditions_subset` — a program read against two robots
-/

namespace Karel

mutual

/-- A statement in which each name that runs is a call, whether it is one of a command or not. -/
def Statement.unbound : Statement → Statement
  | .command callable line => .call callable.name line
  | .call name line => .call name line
  | .doTimes callable count body line => .doTimes callable count (Block.unbound body) line
  | .ifElse callable body arms line => .ifElse callable (Block.unbound body) arms.unbound line
  | .whileDo callable body line => .whileDo callable (Block.unbound body) line
  | .define name body line => .define name (Block.unbound body) line

def Arms.unbound : Arms → Arms
  | .done => .done
  | .otherwise body => .otherwise (Block.unbound body)
  | .elif callable line body next => .elif callable line (Block.unbound body) next.unbound

/-- A block in which each name that runs is a call. -/
def Block.unbound : List Statement → List Statement
  | [] => []
  | statement :: rest => statement.unbound :: Block.unbound rest

end

theorem Arms.unbound_eq_done_iff {arms : Arms} : arms.unbound = .done ↔ arms = .done := by
  cases arms <;> simp [Arms.unbound]

namespace Grammar

variable {first second : Capabilities} {tokens rest : List Token} {name : String} {line : Nat}

/-- A name with the end of a statement behind it is a statement under any capabilities. -/
theorem exists_statementDerivation (capabilities : Capabilities) (name : String) (line : Nat)
    (ends : EndsStatement tokens rest) :
    ∃ statement, statement.unbound = .call name line ∧
      Nonempty (StatementDerivation capabilities (⟨.identifier name, line⟩ :: tokens)
        statement rest) := by
  by_cases hname : name ∈ capabilities.commands
  · exact ⟨.command (.command name) line, rfl, ⟨.command hname ends⟩⟩
  · exact ⟨.call name line, rfl, ⟨.call hname ends⟩⟩

-- The induction is on the derivation. Only a simple statement may become another one, and it takes
-- in the same tokens.
mutual

theorem BlockDerivation.rebind (h : first.conditions ⊆ second.conditions)
    {tokens rest : List Token} {block : Block} : BlockDerivation first tokens block rest →
      ∃ other, Block.unbound other = Block.unbound block ∧
        Nonempty (BlockDerivation second tokens other rest)
  | .nil _ => ⟨[], rfl, ⟨.nil _⟩⟩
  | .newline others => by
    obtain ⟨other, hother, ⟨others⟩⟩ := others.rebind h
    exact ⟨other, hother, ⟨.newline others⟩⟩
  | .cons head others => by
    obtain ⟨statement, hstatement, ⟨head⟩⟩ := head.rebind h
    obtain ⟨other, hother, ⟨others⟩⟩ := others.rebind h
    refine ⟨statement :: other, ?_, ⟨.cons head others⟩⟩
    rw [Block.unbound, Block.unbound, hstatement, hother]

theorem StatementDerivation.rebind (h : first.conditions ⊆ second.conditions)
    {tokens rest : List Token} {statement : Statement} :
    StatementDerivation first tokens statement rest →
      ∃ other : Statement, other.unbound = statement.unbound ∧
        Nonempty (StatementDerivation second tokens other rest)
  | .command _ ends | .call _ ends => exists_statementDerivation second _ _ ends
  | .doTimes value positive body => by
    obtain ⟨other, hother, ⟨body⟩⟩ := body.rebind h
    refine ⟨_, ?_, ⟨.doTimes value positive body⟩⟩
    rw [Statement.unbound, Statement.unbound, hother]
  | .ifElse known body arms => by
    obtain ⟨other, hother, ⟨body⟩⟩ := body.rebind h
    obtain ⟨others, hothers, ⟨arms⟩⟩ := arms.rebind h
    refine ⟨_, ?_, ⟨.ifElse (h known) body arms⟩⟩
    rw [Statement.unbound, Statement.unbound, hother, hothers]
  | .whileDo known body => by
    obtain ⟨other, hother, ⟨body⟩⟩ := body.rebind h
    refine ⟨_, ?_, ⟨.whileDo (h known) body⟩⟩
    rw [Statement.unbound, Statement.unbound, hother]
  | .define body => by
    obtain ⟨other, hother, ⟨body⟩⟩ := body.rebind h
    refine ⟨_, ?_, ⟨.define body⟩⟩
    rw [Statement.unbound, Statement.unbound, hother]

theorem ArmsDerivation.rebind (h : first.conditions ⊆ second.conditions)
    {tokens rest : List Token} {arms : Arms} : ArmsDerivation first tokens arms rest →
      ∃ other : Arms, other.unbound = arms.unbound ∧
        Nonempty (ArmsDerivation second tokens other rest)
  | .done _ => ⟨.done, rfl, ⟨.done _⟩⟩
  | .newline precedes others => by
    obtain ⟨other, hother, ⟨others⟩⟩ := others.rebind h
    refine ⟨other, hother, ⟨.newline (fun hdone => precedes ?_) others⟩⟩
    rw [← Arms.unbound_eq_done_iff, ← hother, hdone, Arms.unbound]
  | .elif known body others => by
    obtain ⟨other, hother, ⟨body⟩⟩ := body.rebind h
    obtain ⟨next, hnext, ⟨others⟩⟩ := others.rebind h
    refine ⟨_, ?_, ⟨.elif (h known) body others⟩⟩
    rw [Arms.unbound, Arms.unbound, hother, hnext]
  | .otherwise body => by
    obtain ⟨other, hother, ⟨body⟩⟩ := body.rebind h
    refine ⟨_, ?_, ⟨.otherwise body⟩⟩
    rw [Arms.unbound, Arms.unbound, hother]

theorem BodyDerivation.rebind (h : first.conditions ⊆ second.conditions)
    {tokens rest : List Token} {block : Block} : BodyDerivation first tokens block rest →
      ∃ other, Block.unbound other = Block.unbound block ∧
        Nonempty (BodyDerivation second tokens other rest)
  | .intro inner => by
    obtain ⟨other, hother, ⟨inner⟩⟩ := inner.rebind h
    exact ⟨other, hother, ⟨.intro inner⟩⟩

end

namespace Outlook

theorem step_eq_of_conditions (h : first.conditions = second.conditions) (outlook : Outlook)
    (kind : TokenKind) : outlook.step first kind = outlook.step second kind := by
  have hcondition : first.isCondition = second.isCondition := by
    funext name
    rw [Capabilities.isCondition, Capabilities.isCondition, h]
  unfold step
  rw [hcondition]

/-- What is awaited does not depend on the commands. -/
theorem run_eq_of_conditions (h : first.conditions = second.conditions) (outlook : Outlook)
    (tokens : List Token) : outlook.run first tokens = outlook.run second tokens := by
  induction tokens generalizing outlook with
  | nil => rfl
  | cons token tokens ih =>
    rw [run, run, step_eq_of_conditions h]
    cases outlook.step second token.kind with
    | ok next => exact ih next
    | error fault => rfl

end Outlook

end Grammar

open Grammar

/-- What is read against one robot can be read against another one that makes the same tests or
    more, and the tree is the same up to which names are commands. Where both make the same tests,
    what is rejected is rejected with the same error. -/
theorem parseProgram_of_conditions_subset {first second : Capabilities} (source : String)
    (h : first.conditions ⊆ second.conditions) :
    (∀ block, parseProgram first source = .ok block →
      ∃ other, parseProgram second source = .ok other ∧
        Block.unbound other = Block.unbound block) ∧
    (first.conditions = second.conditions → ∀ error,
      parseProgram first source = .error error → parseProgram second source = .error error) := by
  constructor
  · intro block hparse
    obtain ⟨⟨endLine, root⟩⟩ := parseProgram_eq_ok_iff.mp hparse
    obtain ⟨other, hother, ⟨root⟩⟩ := root.rebind h
    exact ⟨other, parseProgram_eq_ok_iff.mpr ⟨⟨endLine, root⟩⟩, hother⟩
  · intro hsame error hparse
    rw [← Parse.run_toList_eq_error_iff] at hparse ⊢
    rw [← Outlook.run_eq_of_conditions hsame, hparse]

/-- A robot that can jump, and tell whether it faces east. -/
def Capabilities.jumper : Capabilities where
  commands := ["jump"]
  conditions := ["facing_east"]
  commands_ascending := by simp
  conditions_ascending := by simp
  isName_of_mem_commands := by decide
  isName_of_mem_conditions := by decide
  not_mem_conditions := by decide

/-- A robot that can make the tests of the standard robot, and do nothing. -/
def Capabilities.idle : Capabilities :=
  { Capabilities.standard with
    commands := []
    commands_ascending := by simp
    isName_of_mem_commands := by simp
    not_mem_conditions := by simp }

/-- A robot that jumps and one that moves read the same program, each with its own command. Where
    nothing is a command, the same condition is missing. -/
theorem parseProgram_of_other_commands :
    Capabilities.jumper.conditions ⊆ Capabilities.standard.conditions ∧
    Capabilities.standard.conditions = Capabilities.idle.conditions ∧
    parseProgram Capabilities.jumper "define move:\n  jump\nwhile facing_east:\n  move" =
      .ok [.define "move" [.command (.command "jump") 1] 0,
        .whileDo (.condition "facing_east") [.call "move" 3] 2] ∧
    (∃ other,
      parseProgram Capabilities.standard "define move:\n  jump\nwhile facing_east:\n  move" =
        .ok other ∧
      Block.unbound other = [.define "move" [.call "jump" 1] 0,
        .whileDo (.condition "facing_east") [.call "move" 3] 2]) ∧
    parseProgram Capabilities.idle "move\nif move:" =
      .error { fault := .unknownCondition "move", found := ⟨.identifier "move", 1⟩ } := by
  have hsub : Capabilities.jumper.conditions ⊆ Capabilities.standard.conditions :=
    List.cons_subset.mpr ⟨mem_nameSet.mpr (by decide), List.nil_subset _⟩
  have hsame : Capabilities.standard.conditions = Capabilities.idle.conditions := rfl
  have hread : parseProgram Capabilities.jumper
      "define move:\n  jump\nwhile facing_east:\n  move" =
        .ok [.define "move" [.command (.command "jump") 1] 0,
          .whileDo (.condition "facing_east") [.call "move" 3] 2] := rfl
  have hrejected : parseProgram Capabilities.standard "move\nif move:" =
      .error { fault := .unknownCondition "move", found := ⟨.identifier "move", 1⟩ } := rfl
  refine ⟨hsub, hsame, hread, ?_, ?_⟩
  · exact (parseProgram_of_conditions_subset _ hsub).1 _ hread
  · exact (parseProgram_of_conditions_subset _ (List.Subset.refl _)).2 hsame _ hrejected

end Karel
