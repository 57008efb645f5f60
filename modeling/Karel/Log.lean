import Karel.Parse
import Karel.Verbosity

/-!
# Log

What a command notes while it works.

## Main definitions

- `Event` — a note, with its level, its target, its fields and its text
-/

namespace Karel

/-- A note of a command. -/
inductive Event where
  /-- A source text was split into so many tokens, the end of the input included. -/
  | scanned (tokens : Nat)
  /-- A token is about to be listed. -/
  | listing (token : Token)
  /-- A program of so many tokens is about to be parsed. -/
  | parsing (tokens : Nat)
  /-- A procedure shares its name with a command. -/
  | shadowed (shadowing : Shadowing)
  /-- A program of so many statements was parsed. -/
  | parsed (statements : Nat)
  /-- So many programs are about to be checked. -/
  | checking (files : Nat)
  /-- The capabilities were read from a file. -/
  | loaded (path : String)
  deriving DecidableEq, Repr

/-- A token with all its parts, as it is shown in a note. -/
def Token.details (token : Token) : String :=
  let kind := match token.kind.name.toList with
    | head :: tail => String.ofList (head :: tail.map Char.toLower)
    | [] => ""
  let text := match token.kind.text? with
    | some text => s!"Some(\"{text}\")"
    | none => "None"
  let value := match token.kind.value? with
    | some value => s!"Some({value})"
    | none => "None"
  s!"Token \x7b kind: {kind}, text: {text}, value: {value}, line: {token.line} \x7d"

namespace Event

/-- The level of a note. -/
def level : Event → Verbosity
  | shadowed _ => .warn
  | checking _ => .info
  | parsing _ | parsed _ | loaded _ => .debug
  | scanned _ | listing _ => .trace

/-- The part of the program that a note is about. -/
def target : Event → String
  | scanned _ => "karel_core::lexer"
  | parsing _ | shadowed _ | parsed _ => "karel_core::parser"
  | listing _ | checking _ | loaded _ => "karel"

/-- What a note says. -/
def message : Event → String
  | scanned _ => "tokenized source"
  | listing _ => "token"
  | parsing _ => "parsing program"
  | shadowed _ => "procedure shares its name with a command; calls will run the command"
  | parsed _ => "parsed program"
  | checking _ => "checking programs"
  | loaded _ => "loaded capabilities"

/-- What a note is about in particular: the names of its further fields and their values. -/
def details : Event → List (String × String)
  | scanned tokens => [("tokens", toString tokens)]
  | listing token => [("token", token.details)]
  | parsing tokens => [("tokens", toString tokens)]
  | shadowed shadowing =>
    [("procedure", shadowing.procedure), ("line", toString (shadowing.line + 1))]
  | parsed statements => [("statements", toString statements)]
  | checking files => [("files", toString files)]
  | loaded path => [("path", path)]

/-- The names of all fields of a note. -/
def fields (event : Event) : List String :=
  "message" :: event.details.map (·.1)

/-- The line that shows a note. -/
def text (event : Event) : String :=
  s!"{event.level.name} {event.target}: {event.message}"
    ++ String.join (event.details.map fun (name, value) => s!" {name}={value}") ++ "\n"

end Event

end Karel
