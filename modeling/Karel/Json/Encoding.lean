import Karel.Capabilities
import Karel.Json
import Karel.Statement
import Karel.Token

/-!
# JSON forms

How tokens, trees and capabilities are written as JSON values.

## Main definitions

- `Token.toJson` — a token, with the members that it has
- `Block.toJson` — a tree, each statement tagged with its type
- `Capabilities.toJson` — a descriptor that can be read back
-/

namespace Karel

/-- The JSON form of a token. Only a text and a value that exist are written. -/
def Token.toJson (token : Token) : Json :=
  .object <|
    [("kind", .string token.kind.name)]
      ++ (token.kind.text?.map fun text => ("text", Json.string text)).toList
      ++ (token.kind.value?.map fun value => ("value", Json.number value)).toList
      ++ [("line", .number token.line)]

/-- The JSON form of a callable. -/
def Callable.toJson : Callable → Json
  | command name => .object [("kind", .string "command"), ("name", .string name)]
  | condition name => .object [("kind", .string "condition"), ("name", .string name)]
  | repetition => .object [("kind", .string "repeat")]

/-- The JSON form of a block, given those of its statements. -/
def Json.ofBlock (statements : List Json) : Json :=
  .object [("expressions", .array statements)]

mutual

/-- The JSON form of a statement. -/
def Statement.toJson : Statement → Json
  | .command callable line =>
    .object [("type", .string "Command"), ("callable", callable.toJson), ("line", .number line)]
  | .doTimes callable count body line =>
    .object [("type", .string "Do"), ("callable", callable.toJson), ("count", .number count),
      ("block", .ofBlock (Block.itemsToJson body)), ("line", .number line)]
  | .ifElse callable body arms line =>
    .object [("type", .string "If"), ("callable", callable.toJson),
      ("block", .ofBlock (Block.itemsToJson body)), ("elifs", .array arms.elifsToJson),
      ("else_block", arms.otherwiseToJson), ("line", .number line)]
  | .whileDo callable body line =>
    .object [("type", .string "While"), ("callable", callable.toJson),
      ("block", .ofBlock (Block.itemsToJson body)), ("line", .number line)]
  | .define name body line =>
    .object [("type", .string "Define"), ("name", .string name),
      ("block", .ofBlock (Block.itemsToJson body)), ("line", .number line)]
  | .call name line =>
    .object [("type", .string "Call"), ("fname", .string name), ("line", .number line)]

/-- The JSON forms of the `elif` arms of an `if`. -/
def Arms.elifsToJson : Arms → List Json
  | .done | .otherwise _ => []
  | .elif callable line body next =>
    .object [("callable", callable.toJson), ("line", .number line),
      ("block", .ofBlock (Block.itemsToJson body))] :: next.elifsToJson

/-- The JSON form of the `else` arm of an `if`, which is `null` if there is none. -/
def Arms.otherwiseToJson : Arms → Json
  | .done => .null
  | .otherwise body => .ofBlock (Block.itemsToJson body)
  | .elif _ _ _ next => next.otherwiseToJson

/-- The JSON forms of the statements of a block. -/
def Block.itemsToJson : List Statement → List Json
  | [] => []
  | statement :: rest => statement.toJson :: Block.itemsToJson rest

end

/-- The JSON form of a tree. -/
def Block.toJson (block : Block) : Json :=
  .ofBlock (Block.itemsToJson block)

/-- The JSON form of a list of names. -/
def Json.ofNames (names : List String) : Json :=
  .array (names.map Json.string)

/-- The JSON form of capabilities. -/
def Capabilities.toJson (capabilities : Capabilities) : Json :=
  .object [("commands", .ofNames capabilities.commands),
    ("conditions", .ofNames capabilities.conditions)]

end Karel
