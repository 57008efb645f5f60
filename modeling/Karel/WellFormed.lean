import Karel.Capabilities
import Karel.Statement

/-!
# Well-formed trees

The type of trees admits more than a program text can say. A well-formed tree is one that some
program has under given capabilities.

## Main definitions

- `Callable.IsCommandOf`, `Callable.IsConditionOf` — callables that a robot offers
- `Block.WellFormed` — trees that are bound to given capabilities
-/

namespace Karel

/-- A callable that is a command of the robot. -/
def Callable.IsCommandOf (capabilities : Capabilities) : Callable → Prop
  | command name => name ∈ capabilities.commands
  | condition _ | repetition => False

/-- A callable that is a condition of the robot. -/
def Callable.IsConditionOf (capabilities : Capabilities) : Callable → Prop
  | condition name => name ∈ capabilities.conditions
  | command _ | repetition => False

mutual

/-- A statement whose names are names, whose callables are of the right sort and offered by the
    robot, and whose counts are positive and not too large. A call is not one of a command. -/
def Statement.WellFormed (capabilities : Capabilities) : Statement → Prop
  | .command callable _ => callable.IsCommandOf capabilities
  | .call name _ => isName name = true ∧ name ∉ capabilities.commands
  | .doTimes callable count body _ =>
    callable = .repetition ∧ 0 < count ∧ count < numberLimit
      ∧ Block.WellFormed capabilities body
  | .ifElse callable body arms _ =>
    callable.IsConditionOf capabilities ∧ Block.WellFormed capabilities body
      ∧ arms.WellFormed capabilities
  | .whileDo callable body _ =>
    callable.IsConditionOf capabilities ∧ Block.WellFormed capabilities body
  | .define name body _ => isName name = true ∧ Block.WellFormed capabilities body

/-- Arms with well-formed blocks under conditions of the robot. -/
def Arms.WellFormed (capabilities : Capabilities) : Arms → Prop
  | .done => True
  | .otherwise body => Block.WellFormed capabilities body
  | .elif callable _ body next =>
    callable.IsConditionOf capabilities ∧ Block.WellFormed capabilities body
      ∧ next.WellFormed capabilities

/-- A block of well-formed statements. -/
def Block.WellFormed (capabilities : Capabilities) : List Statement → Prop
  | [] => True
  | statement :: rest =>
    statement.WellFormed capabilities ∧ Block.WellFormed capabilities rest

end

end Karel
