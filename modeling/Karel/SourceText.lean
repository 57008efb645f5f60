import Karel.Statement

/-!
# Source text of trees

The plainest program text of a tree: one line for each statement and each arm, indented by two
spaces a level. An empty block inside a statement is a line with a semicolon, which means nothing.

## Main definitions

- `Block.code` — the lines of a tree with their depths
- `Block.sourceText` — the program text of a tree
- `Block.renumber` — the tree with the line numbers of its own program text
-/

namespace Karel

mutual

/-- The lines of a statement at a depth. -/
def Statement.code (depth : Nat) : Statement → List (Nat × String)
  | .command callable _ => [(depth, callable.name)]
  | .call name _ => [(depth, name)]
  | .doTimes _ count body _ => (depth, s!"do {count}:") :: Block.innerCode (depth + 1) body
  | .ifElse callable body arms _ =>
    (depth, s!"if {callable.name}:") :: (Block.innerCode (depth + 1) body ++ arms.code depth)
  | .whileDo callable body _ =>
    (depth, s!"while {callable.name}:") :: Block.innerCode (depth + 1) body
  | .define name body _ => (depth, s!"define {name}:") :: Block.innerCode (depth + 1) body

/-- The lines of the arms of an `if` at a depth. -/
def Arms.code (depth : Nat) : Arms → List (Nat × String)
  | .done => []
  | .otherwise body => (depth, "else:") :: Block.innerCode (depth + 1) body
  | .elif callable _ body next =>
    (depth, s!"elif {callable.name}:") :: (Block.innerCode (depth + 1) body ++ next.code depth)

/-- The lines of a block inside a statement, which takes at least one. -/
def Block.innerCode (depth : Nat) : List Statement → List (Nat × String)
  | [] => [(depth, ";")]
  | statement :: rest => statement.code depth ++ Block.code depth rest

/-- The lines of a block at a depth. -/
def Block.code (depth : Nat) : List Statement → List (Nat × String)
  | [] => []
  | statement :: rest => statement.code depth ++ Block.code depth rest

end

/-- One line of a program text. -/
def codeLine (entry : Nat × String) : String :=
  String.ofList (List.replicate (2 * entry.1) ' ') ++ entry.2 ++ "\n"

/-- The program text of a tree. -/
def Block.sourceText (block : Block) : String :=
  String.join ((Block.code 0 block).map codeLine)

mutual

/-- A statement whose program text begins on a given line, with the lines of that text. -/
def Statement.renumber (line : Nat) : Statement → Statement
  | .command callable _ => .command callable line
  | .call name _ => .call name line
  | .doTimes callable count body _ =>
    .doTimes callable count (Block.renumber (line + 1) body) line
  | .ifElse callable body arms _ =>
    .ifElse callable (Block.renumber (line + 1) body)
      (arms.renumber (line + 1 + (Block.innerCode 0 body).length)) line
  | .whileDo callable body _ => .whileDo callable (Block.renumber (line + 1) body) line
  | .define name body _ => .define name (Block.renumber (line + 1) body) line

/-- The arms of an `if` whose program text begins on a given line, with the lines of that text. -/
def Arms.renumber (line : Nat) : Arms → Arms
  | .done => .done
  | .otherwise body => .otherwise (Block.renumber (line + 1) body)
  | .elif callable _ body next =>
    .elif callable line (Block.renumber (line + 1) body)
      (next.renumber (line + 1 + (Block.innerCode 0 body).length))

/-- A block whose program text begins on a given line, with the lines of that text. -/
def Block.renumber (line : Nat) : List Statement → List Statement
  | [] => []
  | statement :: rest =>
    statement.renumber line :: Block.renumber (line + (statement.code 0).length) rest

end

end Karel
