import Karel.Capabilities
import Karel.ParseError
import Karel.Statement
import Karel.TokenStream

/-!
# Parsing

A program is read from its tokens by recursive descent, without ever going back. The first fault
ends the reading.

## Main definitions

- `Parse` — a step of reading: it takes tokens and answers with a value or an error, the tokens
  that it left, and the procedures it met that share their name with a command
- `Parse.block`, `Parse.arms` — the two recursive steps
- `Parse.program` — reads a program to the end of its tokens
- `parseProgram` — the tree of a source text
- `Parse.Session` — a token stream that may be read by tokens and by programs in turn

## Design notes

Most steps consume the token that they reject. Only the end of a simple statement looks at the
next token and leaves it in place, and so do the ends of a block and of the arms of an `if`.

The recursion is bounded by a number that shrinks at every step into a block. A number above that
of the tokens is never used up.
-/

namespace Karel

/-- A procedure that shares its name with a command, and the 0-based line of its declaration. A
    call of it runs the command. -/
structure Shadowing where
  procedure : String
  line : Nat
  deriving DecidableEq, Repr

/-- What a step of reading sees besides the tokens. -/
structure ParseContext where
  capabilities : Capabilities
  /-- The line on which the input ends. -/
  endLine : Nat

/-- The answer of a step of reading. -/
structure Reply (α : Type) where
  result : Except ParseError α
  /-- The tokens that the step left. -/
  rest : List Token
  /-- The shadowed procedures that the step met, also if it failed later. -/
  shadowings : List Shadowing

/-- A step of reading. -/
def Parse (α : Type) : Type :=
  ParseContext → List Token → Reply α

namespace Parse

/-- The step that reads nothing. -/
protected def pure {α : Type} (value : α) : Parse α := fun _ tokens =>
  { result := .ok value, rest := tokens, shadowings := [] }

/-- Two steps in a row, the second one on the tokens that the first one left. -/
protected def bind {α β : Type} (first : Parse α) (second : α → Parse β) : Parse β :=
  fun context tokens =>
    let reply := first context tokens
    match reply.result with
    | .ok value =>
      let next := second value context reply.rest
      { next with shadowings := reply.shadowings ++ next.shadowings }
    | .error error =>
      { result := .error error, rest := reply.rest, shadowings := reply.shadowings }

instance : Monad Parse where
  pure := Parse.pure
  bind := Parse.bind

/-- Rejects the program at a token. -/
def fail {α : Type} (fault : ParseFault) (found : Token) : Parse α := fun _ tokens =>
  { result := .error { fault, found }, rest := tokens, shadowings := [] }

/-- The first of some tokens, or else the end of the input. -/
def firstToken (context : ParseContext) (tokens : List Token) : Token :=
  tokens.headD (Token.endOfInput context.endLine)

/-- The next token, which stays in place. -/
def peek : Parse Token := fun context tokens =>
  { result := .ok (firstToken context tokens), rest := tokens, shadowings := [] }

/-- The next token, which is consumed. The end of the input is never used up. -/
def next : Parse Token := fun context tokens =>
  { result := .ok (firstToken context tokens), rest := tokens.tail, shadowings := [] }

/-- The capabilities that the program is read against. -/
def capabilities : Parse Capabilities := fun context tokens =>
  { result := .ok context.capabilities, rest := tokens, shadowings := [] }

/-- Reports a shadowed procedure. -/
def report (shadowing : Shadowing) : Parse Unit := fun _ tokens =>
  { result := .ok (), rest := tokens, shadowings := [shadowing] }

/-- Consumes a token of the given kind. -/
def expect (kind : TokenKind) (fault : ParseFault) : Parse Unit := do
  let token ← next
  if token.kind = kind then pure () else fail fault token

/-- The end of a simple statement: a `newline`, or else the end of its block. -/
def endOfStatement : Parse Unit := do
  let token ← peek
  match token.kind with
  | .newline => do
    let _ ← next
    pure ()
  | .dedent | .eof => pure ()
  | _ => fail .expectedNewline token

/-- Consumes the `newline` tokens that are next. -/
def newlines : Parse Unit := fun _ tokens =>
  { result := .ok (), rest := tokens.dropWhile (·.kind = .newline), shadowings := [] }

/-- The statement that a name makes: an action of the robot, or else a call of a procedure. -/
def simple (name : String) (line : Nat) : Parse Statement := do
  let capabilities ← capabilities
  endOfStatement
  if capabilities.isCommand name then pure (.command (.command name) line)
  else pure (.call name line)

/-- The count of a `do`. -/
def count : Parse Nat := do
  let token ← next
  match token.kind.value? with
  | some (value + 1) => pure (value + 1)
  | _ => fail .expectedNumber token

/-- The condition after a word that needs one. -/
def condition (after : Keyword) : Parse Callable := do
  let token ← next
  match token.kind with
  | .identifier name => do
    let capabilities ← capabilities
    if capabilities.isCondition name then pure (.condition name)
    else fail (.unknownCondition name) token
  | _ => fail (.expectedCondition after) token

/-- The name of a procedure that is declared at a line. -/
def procedureName (line : Nat) : Parse String := do
  let token ← next
  match token.kind with
  | .identifier name => do
    let capabilities ← capabilities
    -- only a warning: the declaration stands, but a call by its name runs the command
    if capabilities.isCommand name then report { procedure := name, line }
    pure name
  | _ => fail .expectedProcedureName token

/-- What follows the header of a compound statement: a colon, a new line, and an indented block. -/
def body (block : Parse Block) : Parse Block := do
  expect .colon .expectedColon
  let token ← next
  match token.kind with
  | .newline => do
    expect .indent .expectedBlock
    let statements ← block
    expect .dedent .expectedStatement
    pure statements
  -- the header was all there is, so it is its block that is missing
  | .eof => fail .expectedBlock token
  | _ => fail .expectedNewline token

/-- A statement, given how to read a block inside it and the arms of an `if`. -/
def statement (block : Parse Block) (arms : Parse Arms) : Parse Statement := do
  let token ← next
  match token.kind with
  | .identifier name => simple name token.line
  | .keyword .«do» => do
    let count ← count
    let statements ← body block
    pure (.doTimes .repetition count statements token.line)
  | .keyword .«if» => do
    let test ← condition .«if»
    let statements ← body block
    let others ← arms
    pure (.ifElse test statements others token.line)
  | .keyword .«while» => do
    let test ← condition .«while»
    let statements ← body block
    pure (.whileDo test statements token.line)
  | .keyword .define => do
    let name ← procedureName token.line
    let statements ← body block
    pure (.define name statements token.line)
  | .keyword .elif => fail .misplacedElif token
  | .keyword .«else» => fail .misplacedElse token
  | .indent => fail .unexpectedIndent token
  | .number _ | .colon | .newline | .dedent | .eof => fail .expectedStatement token

mutual

/-- The statements of a block, up to the `dedent` or the end of the input that closes it. -/
def block : Nat → Parse Block
  | 0 => pure []
  | bound + 1 => do
    let token ← peek
    match token.kind with
    | .dedent | .eof => pure []
    | .newline => do
      -- a gap of blank lines, or a line that holds no token
      let _ ← next
      block bound
    | _ => do
      let first ← statement (block bound) (arms bound)
      let others ← block bound
      pure (first :: others)

/-- The arms that follow the body of an `if`. -/
def arms : Nat → Parse Arms
  | 0 => pure .done
  | bound + 1 => do
    -- blank lines may stand before an arm, and mean nothing if no arm follows
    newlines
    let token ← peek
    match token.kind with
    | .keyword .elif => do
      let _ ← next
      let test ← condition .elif
      let statements ← body (block bound)
      let others ← arms bound
      pure (.elif test token.line statements others)
    | .keyword .«else» => do
      let _ ← next
      let statements ← body (block bound)
      pure (.otherwise statements)
    | _ => pure .done

end

/-- A whole program, within a bound: a block, and then the end of the input. -/
def programWithin (bound : Nat) : Parse Block := do
  let statements ← block bound
  expect .eof .expectedStatement
  pure statements

/-- A whole program. -/
def program : Parse Block := fun context tokens =>
  programWithin (tokens.length + 1) context tokens

end Parse

/-- The reply to a whole source text. -/
def replyTo (capabilities : Capabilities) (source : String) : Reply Block :=
  Parse.program { capabilities, endLine := endLine source } (scan source)

/-- The tree of a source text. -/
def parseProgram (capabilities : Capabilities) (source : String) : Except ParseError Block :=
  (replyTo capabilities source).result

example : parseProgram Capabilities.standard "do 2:\n  move\n  turn" =
    .ok [.doTimes .repetition 2 [.command (.command "move") 1, .call "turn" 2] 0] := rfl

example : parseProgram Capabilities.standard "move\nif move:\n  move\n" =
    .error { fault := .unknownCondition "move", found := ⟨.identifier "move", 1⟩ } := rfl

/-- A token stream that is read by tokens and by programs in turn. -/
structure Parse.Session where
  capabilities : Capabilities
  stream : TokenStream

namespace Parse.Session

/-- The session at the start of a source text. -/
def start (capabilities : Capabilities) (source : String) : Parse.Session where
  capabilities := capabilities
  stream := TokenStream.ofSource source

/-- Reads one token. -/
def next (session : Parse.Session) : Token × Parse.Session :=
  let (token, stream) := session.stream.next
  (token, { session with stream })

/-- The number of tokens of the whole source. -/
def count (session : Parse.Session) : Nat :=
  session.stream.count

/-- Reads a program from the present position to the end. After a fault the session stands where
    the reading ended. -/
def parse (session : Parse.Session) : Except ParseError Block × Parse.Session :=
  let context : ParseContext :=
    { capabilities := session.capabilities, endLine := session.stream.endLine }
  let reply := Parse.program context session.stream.ahead
  (reply.result, { session with stream := { session.stream with ahead := reply.rest } })

end Parse.Session

end Karel
