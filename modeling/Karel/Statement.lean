/-!
# Statements

The tree of a Karel program. A program is a block, a block is a list of statements, and a compound
statement holds blocks of its own. The tree owns nothing but itself: an executor walks a block in
order and looks at each statement's form.

## Main definitions

- `Callable` — what a statement invokes when it is executed
- `Statement`, `Arms`, `Block` — the tree, with the arms that follow the body of an `if`
- `Statement.blocks` — the blocks directly inside a statement, in source order
- `Block.nodes` — all statements of a tree with their depths, each before those inside it

## Design notes

The type admits more trees than a program text can have: a `do` may hold a condition, and a name
may be any text.
-/

namespace Karel

/-- What a statement invokes when it is executed. -/
inductive Callable where
  /-- An action of the robot. -/
  | command (name : String)
  /-- A test that the robot can make. -/
  | condition (name : String)
  /-- The repetition that `do` stands for. -/
  | repetition
  deriving DecidableEq, Repr

/-- The name of a callable. -/
def Callable.name : Callable → String
  | command name | condition name => name
  | repetition => "do"

mutual

/-- A statement with the 0-based line of its first token. -/
inductive Statement where
  /-- An action. -/
  | command (callable : Callable) (line : Nat)
  /-- A use of a procedure by its name. -/
  | call (name : String) (line : Nat)
  /-- A body that is repeated a fixed number of times. -/
  | doTimes (callable : Callable) (count : Nat) (body : List Statement) (line : Nat)
  /-- A body under a condition, and the arms tried when the condition fails. -/
  | ifElse (callable : Callable) (body : List Statement) (arms : Arms) (line : Nat)
  /-- A body that is repeated as long as a condition holds. -/
  | whileDo (callable : Callable) (body : List Statement) (line : Nat)
  /-- A declaration of a procedure, which executes nothing. -/
  | define (name : String) (body : List Statement) (line : Nat)

/-- The arms that follow the body of an `if`: any number of `elif`, then at most one `else`. -/
inductive Arms where
  | done
  | otherwise (body : List Statement)
  | elif (callable : Callable) (line : Nat) (body : List Statement) (next : Arms)

end

/-- A block is a list of statements. -/
abbrev Block := List Statement

/-- The blocks of the arms of an `if`, in source order. -/
def Arms.blocks : Arms → List Block
  | done => []
  | otherwise body => [body]
  | elif _ _ body next => body :: next.blocks

namespace Statement

/-- The name of a statement: what it names, or else its leading word. -/
def name : Statement → String
  | command callable _ => callable.name
  | call name _ => name
  | doTimes .. => "do"
  | ifElse .. => "if"
  | whileDo .. => "while"
  | define name _ _ => name

/-- The 0-based line of the first token of a statement. -/
def line : Statement → Nat
  | command _ line => line
  | call _ line => line
  | doTimes _ _ _ line => line
  | ifElse _ _ _ line => line
  | whileDo _ _ line => line
  | define _ _ line => line

/-- What a statement invokes. Declarations and procedure calls invoke nothing by themselves. -/
def callable? : Statement → Option Callable
  | command callable _ => some callable
  | doTimes callable _ _ _ => some callable
  | ifElse callable _ _ _ => some callable
  | whileDo callable _ _ => some callable
  | call .. | define .. => none

/-- The blocks directly inside a statement, in source order. -/
def blocks : Statement → List Block
  | command .. | call .. => []
  | doTimes _ _ body _ => [body]
  | ifElse _ body arms _ => body :: arms.blocks
  | whileDo _ body _ => [body]
  | define _ body _ => [body]

end Statement

mutual

/-- A statement at a depth, followed by the statements inside it. -/
def Statement.nodes (depth : Nat) : Statement → List (Nat × Statement)
  | .command callable line => [(depth, .command callable line)]
  | .call name line => [(depth, .call name line)]
  | .doTimes callable count body line =>
    (depth, .doTimes callable count body line) :: Block.nodes (depth + 1) body
  | .ifElse callable body arms line =>
    (depth, .ifElse callable body arms line)
      :: (Block.nodes (depth + 1) body ++ arms.nodes (depth + 1))
  | .whileDo callable body line =>
    (depth, .whileDo callable body line) :: Block.nodes (depth + 1) body
  | .define name body line => (depth, .define name body line) :: Block.nodes (depth + 1) body

/-- The statements inside the arms of an `if`, those directly in an arm at the given depth. -/
def Arms.nodes (depth : Nat) : Arms → List (Nat × Statement)
  | .done => []
  | .otherwise body => Block.nodes depth body
  | .elif _ _ body next => Block.nodes depth body ++ next.nodes depth

/-- The statements of a tree, each at its depth and before those inside it. -/
def Block.nodes (depth : Nat) : List Statement → List (Nat × Statement)
  | [] => []
  | statement :: rest => statement.nodes depth ++ Block.nodes depth rest

end

/-- The statements of a tree, each before those inside it. -/
def Block.statements (block : Block) : List Statement :=
  (Block.nodes 0 block).map Prod.snd

end Karel
