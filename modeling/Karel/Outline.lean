import Karel.Statement

/-!
# Outlines

The printed form of a tree: one heading per statement and arm, indented by its depth, with
1-based line numbers.

## Main definitions

- `Heading` — the first line of a statement or of an arm
- `Block.outline` — the headings of a tree with their depths
- `Block.treeText` — the printed form of a tree
-/

namespace Karel

/-- The first line of a statement, or of an arm of an `if`, with its 0-based line number. The
    line of an `else` is not kept. -/
inductive Heading where
  | command (name : String) (line : Nat)
  | call (name : String) (line : Nat)
  | doTimes (count : Nat) (line : Nat)
  | ifElse (condition : String) (line : Nat)
  | elif (condition : String) (line : Nat)
  | otherwise
  | whileDo (condition : String) (line : Nat)
  | define (name : String) (line : Nat)
  deriving DecidableEq, Repr

/-- A heading in words. -/
def Heading.text : Heading → String
  | command name line => s!"command {name} (line {line + 1})"
  | call name line => s!"call {name} (line {line + 1})"
  | doTimes count line => s!"do {count} (line {line + 1})"
  | ifElse condition line => s!"if {condition} (line {line + 1})"
  | elif condition line => s!"elif {condition} (line {line + 1})"
  | otherwise => "else"
  | whileDo condition line => s!"while {condition} (line {line + 1})"
  | define name line => s!"define {name} (line {line + 1})"

mutual

/-- The headings of a statement at a depth. -/
def Statement.outline (depth : Nat) : Statement → List (Nat × Heading)
  | .command callable line => [(depth, .command callable.name line)]
  | .call name line => [(depth, .call name line)]
  | .doTimes _ count body line =>
    (depth, .doTimes count line) :: Block.outline (depth + 1) body
  | .ifElse callable body arms line =>
    (depth, .ifElse callable.name line) :: (Block.outline (depth + 1) body ++ arms.outline depth)
  | .whileDo callable body line =>
    (depth, .whileDo callable.name line) :: Block.outline (depth + 1) body
  | .define name body line => (depth, .define name line) :: Block.outline (depth + 1) body

/-- The headings of the arms of an `if` at a depth. -/
def Arms.outline (depth : Nat) : Arms → List (Nat × Heading)
  | .done => []
  | .otherwise body => (depth, .otherwise) :: Block.outline (depth + 1) body
  | .elif callable line body next =>
    (depth, .elif callable.name line) :: (Block.outline (depth + 1) body ++ next.outline depth)

/-- The headings of a block at a depth. -/
def Block.outline (depth : Nat) : List Statement → List (Nat × Heading)
  | [] => []
  | statement :: rest => statement.outline depth ++ Block.outline depth rest

end

/-- One line of a printed tree: two spaces per level, then the heading. -/
def outlineLine (entry : Nat × Heading) : String :=
  String.ofList (List.replicate (2 * entry.1) ' ') ++ entry.2.text ++ "\n"

/-- The printed form of a tree. -/
def Block.treeText (block : Block) : String :=
  String.join ((Block.outline 0 block).map outlineLine)

end Karel
