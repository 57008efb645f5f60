import Karel.Token

/-!
# Parse errors

A program that is not in the language is rejected at one token, for one reason.

## Main definitions

- `ParseFault` — what was expected, or what is out of place
- `ParseFault.message` — the fault in words
- `ParseError` — a fault and the token at which it shows
- `ParseError.text` — the report of an error with its line
-/

namespace Karel

/-- What is wrong at a token. -/
inductive ParseFault where
  /-- A `do` without a positive count of 32 bits. -/
  | expectedNumber
  | expectedColon
  | expectedNewline
  | expectedBlock
  | expectedProcedureName
  | expectedStatement
  | unexpectedIndent
  | misplacedElif
  | misplacedElse
  /-- A word that needs a condition has none after it. -/
  | expectedCondition (after : Keyword)
  /-- A name in the place of a condition that the robot does not offer. -/
  | unknownCondition (name : String)
  deriving DecidableEq, Repr

/-- A fault in words. -/
def ParseFault.message : ParseFault → String
  | expectedNumber => "Expected number after do."
  | expectedColon => "Expected a colon."
  | expectedNewline => "Expected a newline."
  | expectedBlock => "Expected an indented block."
  | expectedProcedureName => "Expected a function name after define."
  | expectedStatement => "Expected a statement."
  | unexpectedIndent => "Unexpected indent."
  | misplacedElif => "elif statement can only come after an if statement."
  | misplacedElse => "else statement can only come after an if statement."
  | expectedCondition .«while» => "Expected a conditional expression after a while."
  | expectedCondition word => s!"Expected a conditional expression after an {word.text}."
  | unknownCondition name => s!"Unrecognized conditional expression \"{name}\"."

/-- A fault and the token at which it shows. -/
structure ParseError where
  fault : ParseFault
  found : Token
  deriving DecidableEq, Repr

namespace ParseError

/-- The words for the fault of an error. -/
def message (error : ParseError) : String :=
  error.fault.message

/-- The 1-based line of an error. -/
def line (error : ParseError) : Nat :=
  error.found.line + 1

end ParseError

/-- A report with the line that it is about. -/
def reportAtLine (message : String) (line : Nat) : String :=
  s!"{message} line: {line}"

/-- The report of an error. -/
def ParseError.text (error : ParseError) : String :=
  reportAtLine error.message error.line

end Karel
