/-!
# Invocations

The arguments of the command line and what they ask for.

## Main definitions

- `Task` — one of the four things that the program does, with its operands
- `Invocation` — a task and the options that every task has
- `HelpTopic` — what there is help for
- `Demand` — what an argument list asks for: a run, a piece of information, or nothing sensible
- `Demand.ofArguments` — reads an argument list

## Design notes

Arguments are read from left to right, and the first one that is an error, or that asks for help
or for the version, decides. The options of every task may stand before the name of the task and
after it, once in either place, and the later place wins.
-/

namespace Karel

/-- What the program does with a program text or with the vocabulary. -/
inductive Task where
  | tokens (input? : Option String) (json : Bool)
  | parse (input? : Option String) (json : Bool)
  | check (paths : List String)
  | vocabulary
  deriving DecidableEq, Repr

/-- A task with the options that every task has. -/
structure Invocation where
  capabilities? : Option String
  logLevel : String
  task : Task
  deriving DecidableEq, Repr

/-- The name of a task. -/
inductive TaskName where
  | tokens
  | parse
  | check
  | vocabulary
  deriving DecidableEq, Repr

/-- What there is help for. -/
inductive HelpTopic where
  | program
  | task (name : TaskName)
  /-- The request for help itself. -/
  | help
  deriving DecidableEq, Repr

/-- What an argument list asks for. -/
inductive Demand where
  | run (invocation : Invocation)
  | version
  | help (topic : HelpTopic)
  | misuse
  deriving DecidableEq, Repr

/-- The form of an argument. -/
inductive Argument where
  /-- A word that is no option. A lone hyphen is one. -/
  | operand (text : String)
  /-- Two hyphens: all that follows is no option. -/
  | endOfOptions
  /-- A name after two hyphens, with what follows an equals sign. -/
  | long (name : String) (value? : Option String)
  /-- Letters after one hyphen, of which the first decides. -/
  | short (letter : Char)
  deriving DecidableEq, Repr

namespace Argument

/-- The part of a text before its first equals sign, and the part after it. -/
def splitValue (text : List Char) : String × Option String :=
  let name := text.takeWhile (· ≠ '=')
  match text.dropWhile (· ≠ '=') with
  | [] => (String.ofList name, none)
  | _ :: value => (String.ofList name, some (String.ofList value))

/-- The form of an argument. -/
def ofText (text : String) : Argument :=
  match text.toList with
  | ['-', '-'] => endOfOptions
  | '-' :: '-' :: rest => long (splitValue rest).1 (splitValue rest).2
  | '-' :: letter :: _ => short letter
  | _ => operand text

end Argument

/-- The options of every task, as far as they are given. -/
structure Settings where
  capabilities? : Option String
  logLevel? : Option String
  deriving DecidableEq, Repr

namespace Settings

/-- No option given. -/
def empty : Settings where
  capabilities? := none
  logLevel? := none

/-- The settings with one more option. No option is given twice, and a path is not empty. -/
def set (settings : Settings) (option value : String) : Option Settings :=
  if option = "capabilities" then
    if settings.capabilities?.isSome ∨ value = "" then none
    else some { settings with capabilities? := some value }
  else if option = "log-level" then
    if settings.logLevel?.isSome then none
    else some { settings with logLevel? := some value }
  else none

/-- The settings of two places, where the second place wins. -/
def overriddenBy (outer inner : Settings) : Settings where
  capabilities? := inner.capabilities?.or outer.capabilities?
  logLevel? := inner.logLevel?.or outer.logLevel?

end Settings

namespace TaskName

/-- The task of a given name. -/
def ofText? : String → Option TaskName
  | "tokens" => some tokens
  | "parse" => some parse
  | "check" => some check
  | "vocabulary" => some vocabulary
  | _ => none

/-- The number of operands that a task takes at most, if there is a limit. -/
def operandLimit : TaskName → Option Nat
  | tokens | parse => some 1
  | check => none
  | vocabulary => some 0

/-- A task that can write JSON. -/
def offersJson : TaskName → Bool
  | tokens | parse => true
  | check | vocabulary => false

end TaskName

/-- The arguments of a task, as far as they are read. The operands are in reverse order. -/
structure TaskArguments where
  settings : Settings
  json : Bool
  operands : List String
  deriving DecidableEq, Repr

namespace TaskArguments

/-- No argument read. -/
def empty : TaskArguments where
  settings := Settings.empty
  json := false
  operands := []

/-- The arguments with one more operand, if the task takes it. No operand is empty. -/
def addOperand (name : TaskName) (arguments : TaskArguments) (operand : String) :
    Option TaskArguments :=
  let full : Bool := match name.operandLimit with
    | some limit => limit ≤ arguments.operands.length
    | none => false
  if full || operand = "" then none
  else some { arguments with operands := operand :: arguments.operands }

/-- The arguments with several more operands. -/
def addOperands (name : TaskName) (arguments : TaskArguments) :
    List String → Option TaskArguments
  | [] => some arguments
  | operand :: rest => (arguments.addOperand name operand).bind (addOperands name · rest)

/-- The invocation that complete arguments denote. A check needs a path. -/
def finish (name : TaskName) (outer : Settings) (arguments : TaskArguments) : Demand :=
  let settings := outer.overriddenBy arguments.settings
  let run (task : Task) : Demand := .run {
    capabilities? := settings.capabilities?
    logLevel := settings.logLevel?.getD "warn"
    task }
  match name with
  | .tokens => run (.tokens arguments.operands.head? arguments.json)
  | .parse => run (.parse arguments.operands.head? arguments.json)
  | .check =>
    if arguments.operands.isEmpty then .misuse else run (.check arguments.operands.reverse)
  | .vocabulary => run .vocabulary

/-- Reads the arguments that follow the name of a task. -/
def read (name : TaskName) (outer : Settings) : TaskArguments → List String → Demand
  | arguments, [] => arguments.finish name outer
  | arguments, argument :: rest =>
    match Argument.ofText argument with
    | .operand text =>
      match arguments.addOperand name text with
      | some arguments => read name outer arguments rest
      | none => .misuse
    | .endOfOptions =>
      -- whatever the rest looks like, it holds no option
      match arguments.addOperands name rest with
      | some arguments => arguments.finish name outer
      | none => .misuse
    | .short 'h' => .help (.task name)
    | .short _ => .misuse
    | .long "help" none => .help (.task name)
    | .long "json" none =>
      if name.offersJson && !arguments.json then read name outer { arguments with json := true } rest
      else .misuse
    | .long option (some value) =>
      match arguments.settings.set option value with
      | some settings => read name outer { arguments with settings } rest
      | none => .misuse
    | .long option none =>
      match rest with
      | [] => .misuse
      | value :: more =>
        -- what looks like an option is no value
        match Argument.ofText value, arguments.settings.set option value with
        | .operand _, some settings => read name outer { arguments with settings } more
        | _, _ => .misuse

end TaskArguments

namespace Demand

/-- A request for help names at most one thing, and one that there is help for. -/
def ofHelp : List String → Demand
  | [] => .help .program
  | ["help"] => .help .help
  | [topic] =>
    match TaskName.ofText? topic with
    | some name => .help (.task name)
    | none => .misuse
  | _ => .misuse

/-- Reads the arguments that precede the name of a task, and then the rest. -/
def read : Settings → List String → Demand
  | _, [] => .misuse
  | settings, argument :: rest =>
    match Argument.ofText argument with
    | .operand "help" => ofHelp rest
    | .operand text =>
      match TaskName.ofText? text with
      | some name => TaskArguments.read name settings TaskArguments.empty rest
      | none => .misuse
    | .endOfOptions => .misuse
    | .short 'h' => .help .program
    | .short 'V' => .version
    | .short _ => .misuse
    | .long "help" none => .help .program
    | .long "version" none => .version
    | .long option (some value) =>
      match settings.set option value with
      | some settings => read settings rest
      | none => .misuse
    | .long option none =>
      match rest with
      | [] => .misuse
      | value :: more =>
        match Argument.ofText value, settings.set option value with
        | .operand _, some settings => read settings more
        | _, _ => .misuse

/-- What an argument list asks for. -/
def ofArguments (arguments : List String) : Demand :=
  read Settings.empty arguments

end Demand

/-- The paths that an invocation reads. -/
def Invocation.paths (invocation : Invocation) : List String :=
  invocation.capabilities?.toList ++
    match invocation.task with
    | .tokens input? _ | .parse input? _ => input?.toList
    | .check paths => paths
    | .vocabulary => []

end Karel
