import Karel.Invocation

/-!
# Usage

The pages that explain the command line.

## Main definitions

- `HelpPage` — what something does, how it is called, and tables of its parts
- `HelpPage.text` — a page as it is printed
- `HelpTopic.page` — the page on a topic
-/

namespace Karel

/-- A table of terms, each with its meaning. -/
structure HelpTable where
  heading : String
  rows : List (String × String)

/-- A page on the program or on a part of it. -/
structure HelpPage where
  /-- What it does. -/
  about : String
  /-- How it is called. -/
  usage : String
  tables : List HelpTable

namespace HelpTable

/-- The number of characters of the longest term. -/
def width (table : HelpTable) : Nat :=
  table.rows.foldl (fun width (term, _) => max width term.length) 0

/-- A row with the meaning in the second column. -/
def rowText (width : Nat) (row : String × String) : String :=
  s!"  {row.1}" ++ String.ofList (List.replicate (width - row.1.length) ' ') ++ s!"  {row.2}\n"

/-- A table as it is printed. -/
def text (table : HelpTable) : String :=
  s!"\n{table.heading}:\n" ++ String.join (table.rows.map (rowText table.width))

end HelpTable

/-- A page as it is printed. -/
def HelpPage.text (page : HelpPage) : String :=
  s!"{page.about}\n\nUsage: {page.usage}\n" ++ String.join (page.tables.map HelpTable.text)

namespace TaskName

/-- All tasks. -/
def all : List TaskName :=
  [tokens, parse, check, vocabulary]

/-- The name of a task on the command line. -/
def text : TaskName → String
  | tokens => "tokens"
  | parse => "parse"
  | check => "check"
  | vocabulary => "vocabulary"

/-- What a task does. -/
def about : TaskName → String
  | tokens => "Print the token stream of a program (stdin if no file is given)"
  | parse => "Print the syntax tree of a program (stdin if no file is given)"
  | check =>
    "Parse every program under the given paths; directories are searched for `.karel` files"
  | vocabulary => "List the commands and conditions programs may use"

/-- How the operands of a task are written. -/
def operandText? : TaskName → Option String
  | tokens | parse => some "[INPUT]"
  | check => some "<PATHS>..."
  | vocabulary => none

/-- What a task writes as JSON if it is asked to. -/
def jsonText? : TaskName → Option String
  | tokens => some "Print tokens as a JSON array"
  | parse => some "Print the tree as JSON"
  | check | vocabulary => none

/-- The name of a task that is found under a name. -/
@[simp] theorem ofText?_text (name : TaskName) : ofText? name.text = some name := by
  cases name <;> rfl

end TaskName

namespace HelpTopic

/-- What a request for help does. -/
def helpAbout : String :=
  "Print this message or the help of the given subcommand(s)"

/-- The option for the capabilities. -/
def capabilitiesRow : String × String :=
  ("    --capabilities <FILE>", "JSON capability descriptor (defaults to the standard Karel robot)")

/-- The option for the log level. -/
def logLevelRow : String × String :=
  ("    --log-level <LEVEL>",
    "Log filter directive, e.g. debug or karel_core=trace [default: warn]")

/-- The option for help. -/
def helpRow : String × String :=
  ("-h, --help", "Print help")

/-- The page on a task. -/
def taskPage (name : TaskName) : HelpPage where
  about := name.about
  usage := s!"karel {name.text} [OPTIONS]"
    ++ match name.operandText? with
      | some operand => " " ++ operand
      | none => ""
  tables :=
    (name.operandText?.toList.map fun operand =>
      { heading := "Arguments", rows := [(operand, "")] }) ++
    [{
      heading := "Options"
      rows := [capabilitiesRow]
        ++ name.jsonText?.toList.map (fun text => ("    --json", text))
        ++ [logLevelRow, helpRow] }]

/-- The page on a topic. -/
def page : HelpTopic → HelpPage
  | program => {
    about := "Command line interface for the Karel language frontend"
    usage := "karel [OPTIONS] <COMMAND>"
    tables := [
      { heading := "Commands"
        rows := TaskName.all.map (fun name => (name.text, name.about)) ++ [("help", helpAbout)] },
      { heading := "Options"
        rows := [capabilitiesRow, logLevelRow, helpRow, ("-V, --version", "Print version")] }] }
  | task name => taskPage name
  | help => {
    about := helpAbout
    usage := "karel help [COMMAND]..."
    tables := [
      { heading := "Arguments"
        rows := [("[COMMAND]...", "Print help for the subcommand(s)")] }] }

end HelpTopic

end Karel
