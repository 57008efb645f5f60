import Karel.Descriptor
import Karel.FileTree
import Karel.Json.Encoding
import Karel.LogFilter
import Karel.Outline
import Karel.Procedures
import Karel.Usage

/-!
# Commands

What the program prints, notes and returns for an invocation, given the files that the paths lead
to and the standard input.

## Main definitions

- `Failure` — a report of what failed and of the causes behind it
- `Outcome` — what was printed and noted, and how it ended
- `checkPrograms` — the check of a list of programs
- `Invocation.outcome` — the outcome of an invocation
- `Output`, `runCommand` — the exit code and the two output texts of an argument list
-/

namespace Karel

/-- What failed, and why, from the outer cause to the inner one. -/
structure Failure where
  context : String
  causes : List String
  deriving DecidableEq, Repr

namespace Failure

/-- A text with further lines moved right. -/
def indentLines (width : Nat) (text : String) : String :=
  String.ofList <| text.toList.flatMap fun char =>
    if char = '\n' then '\n' :: List.replicate width ' ' else [char]

/-- The lines of the causes. Several causes are numbered. -/
def causeLines : List String → List String
  | [cause] => ["    " ++ indentLines 4 cause]
  | causes => causes.mapIdx fun index cause => s!"    {index}: " ++ indentLines 7 cause

/-- The report of a failure. -/
def text (failure : Failure) : String :=
  s!"Error: {failure.context}\n\nCaused by:\n"
    ++ String.join ((causeLines failure.causes).map (· ++ "\n"))

/-- A program that could not be read. -/
def unreadable (context : String) (fault : ReadFault) : Failure where
  context := context
  causes := [fault.message, fault.reason]

end Failure

/-- How a command ends. -/
inductive Ending where
  | success
  /-- Something failed on the way. -/
  | failed (report : Failure)
  /-- All programs were checked, and some of them did not parse. -/
  | rejected (count total : Nat)
  deriving DecidableEq, Repr

namespace Ending

/-- The exit code of an ending. -/
def exitCode : Ending → Nat
  | success => 0
  | failed _ | rejected _ _ => 1

/-- The last words of a command. -/
def text : Ending → String
  | success => ""
  | failed report => report.text
  | rejected count total => s!"{count} of {total} programs failed to parse\n"

end Ending

/-- What a command has printed and noted, and how it ended. -/
structure Outcome where
  printed : String
  events : List Event
  ending : Ending
  deriving DecidableEq, Repr

namespace Outcome

/-- The outcome of a command that prints a text. -/
def print (text : String) : Outcome where
  printed := text
  events := []
  ending := .success

/-- The outcome of a command that fails. -/
def fail (report : Failure) : Outcome where
  printed := ""
  events := []
  ending := .failed report

/-- The outcome of a command that noted some events first. -/
def after (events : List Event) (outcome : Outcome) : Outcome :=
  { outcome with events := events ++ outcome.events }

/-- The outcome of a command that printed a text first. -/
def afterPrinting (text : String) (outcome : Outcome) : Outcome :=
  { outcome with printed := text ++ outcome.printed }

end Outcome

/-- What is noted while a source text is parsed. -/
def parseEvents (capabilities : Capabilities) (source : String) : List Event :=
  let reply := replyTo capabilities source
  [.scanned ((scan source).length + 1), .parsing (scan source).length]
    ++ reply.shadowings.map Event.shadowed ++
    match reply.result with
    | .ok block => [.parsed block.length]
    | .error _ => []

/-- What is noted while the tokens of a source text are listed. -/
def listingEvents (source : String) : List Event :=
  (TokenStream.ofSource source).toList.map Event.listing

/-- The listing of the tokens of a source text, the end of the input included. -/
def tokensText (source : String) : String :=
  String.join <| (TokenStream.ofSource source).toList.map fun token =>
    match token.kind.text? with
    | some text => s!"{token.line + 1} {token.kind.name} {text}\n"
    | none => s!"{token.line + 1} {token.kind.name}\n"

/-- The JSON form of the tokens of a source text. -/
def tokensJson (source : String) : Json :=
  .array ((TokenStream.ofSource source).toList.map Token.toJson)

/-- The listing of the names that a program may use. -/
def vocabularyText (capabilities : Capabilities) : String :=
  String.join (capabilities.commands.map fun name => s!"command {name}\n")
    ++ String.join (capabilities.conditions.map fun name => s!"condition {name}\n")

/-- The report on a checked program: its calls of procedures that it does not declare, or the
    fault in it. -/
def checkReport (path : String) : Except ParseError Block → String
  | .ok block => s!"{path}: ok\n" ++
    String.join (block.undefinedCalls.map fun call =>
      s!"{path}:{call.2 + 1}: warning: call to undefined procedure \"{call.1}\"\n")
  | .error error => s!"{path}: {error.text}\n"

/-- The check of the remaining programs of a list, after some of them failed. -/
def checkFrom (capabilities : Capabilities) (total failed : Nat) :
    List (String × Except ReadFault String) → Outcome
  | [] => {
    printed := ""
    events := []
    ending := if failed = 0 then .success else .rejected failed total }
  | (path, .error fault) :: _ => .fail (.unreadable s!"failed to read {path}" fault)
  | (path, .ok source) :: rest =>
    let result := parseProgram capabilities source
    let failed := if result.isOk then failed else failed + 1
    ((checkFrom capabilities total failed rest).afterPrinting (checkReport path result)).after
      (parseEvents capabilities source)

/-- The check of a list of programs. -/
def checkPrograms (capabilities : Capabilities)
    (programs : List (String × Except ReadFault String)) : Outcome :=
  (checkFrom capabilities programs.length 0 programs).after [.checking programs.length]

/-- The text of the input of a task, which is the standard input if no path is given. -/
def readInput (files : Files) (stdin : ByteArray) : Option String → Except Failure String
  | some path =>
    match (files path).bind Node.readText with
    | .ok text => .ok text
    | .error fault => .error (.unreadable s!"failed to read input file {path}" fault)
  | none =>
    match decodeText stdin with
    | .ok text => .ok text
    | .error fault =>
      .error { context := "failed to read program from stdin", causes := [fault.reason] }

/-- The capabilities in a file, or those of the standard robot if no path is given. -/
def loadCapabilities (files : Files) : Option String → Except Failure Capabilities
  | none => .ok Capabilities.standard
  | some path =>
    match (files path).bind Node.readText with
    | .error fault =>
      .error { context := s!"failed to read capabilities file {path}", causes := [fault.reason] }
    | .ok text =>
      match Capabilities.ofJsonText text with
      | .ok capabilities => .ok capabilities
      | .error error =>
        .error { context := s!"invalid capabilities file {path}", causes := [error.message] }

/-- The outcome of a task under given capabilities. -/
def Task.outcome (files : Files) (stdin : ByteArray) (capabilities : Capabilities) :
    Task → Outcome
  | .tokens input? json =>
    match readInput files stdin input? with
    | .error report => .fail report
    | .ok source =>
      let outcome : Outcome :=
        if json then .print ((tokensJson source).pretty ++ "\n")
        else (Outcome.print (tokensText source)).after (listingEvents source)
      outcome.after [.scanned ((scan source).length + 1)]
  | .parse input? json =>
    match readInput files stdin input? with
    | .error report => .fail report
    | .ok source =>
      let outcome : Outcome := match parseProgram capabilities source with
        | .ok block =>
          if json then .print (block.toJson.pretty ++ "\n") else .print block.treeText
        | .error error => .fail {
            context := s!"failed to parse " ++ input?.getD "<stdin>"
            causes := [error.text] }
      outcome.after (parseEvents capabilities source)
  | .check paths => checkPrograms capabilities (collectPrograms files paths)
  | .vocabulary => .print (vocabularyText capabilities)

/-- The outcome of an invocation. The capabilities are read before anything else. -/
def Invocation.outcome (files : Files) (stdin : ByteArray) (invocation : Invocation) : Outcome :=
  match loadCapabilities files invocation.capabilities? with
  | .error report => .fail report
  | .ok capabilities =>
    (invocation.task.outcome files stdin capabilities).after
      (invocation.capabilities?.toList.map Event.loaded)

/-- What a run of the program leaves behind. -/
structure Output where
  exitCode : Nat
  stdout : String
  stderr : String
  deriving DecidableEq, Repr

/-- The output of an outcome, with the notes that are shown at a log level. What is wrong with the
    log level itself is reported before them. -/
def Outcome.output (logLevel : String) (outcome : Outcome) : Output where
  exitCode := outcome.ending.exitCode
  stdout := outcome.printed
  stderr := LogFilter.ignoredText logLevel ++ (LogFilter.ofText logLevel).text outcome.events
    ++ outcome.ending.text

/-- The output of the program for an argument list. -/
def runCommand (files : Files) (stdin : ByteArray) (arguments : List String) : Output :=
  match Demand.ofArguments arguments with
  | .run invocation =>
    (invocation.outcome files stdin).output invocation.logLevel
  | .version => { exitCode := 0, stdout := "karel 0.1.0\n", stderr := "" }
  | .help topic => { exitCode := 0, stdout := topic.page.text, stderr := "" }
  | .misuse => { exitCode := 2, stdout := "", stderr := HelpTopic.program.page.text }

end Karel
