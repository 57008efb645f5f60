import Karel.Decimal

/-!
# Tokens

The tokens of a Karel program. Indentation is not whitespace: a change of the leading width of a
line is a token of its own, so that a block is delimited by `indent` and `dedent` as it would be
by brackets.

## Main definitions

- `Keyword` — the six reserved words
- `TokenKind` — what a token is, with its text where it has one
- `Token` — a token and the line it stands on
-/

namespace Karel

/-- The reserved words. -/
inductive Keyword where
  | define
  | «do»
  | «if»
  | elif
  | «else»
  | «while»
  deriving DecidableEq, Repr

namespace Keyword

/-- The spelling of a reserved word. -/
def text : Keyword → String
  | define => "define"
  | «do» => "do"
  | «if» => "if"
  | elif => "elif"
  | «else» => "else"
  | «while» => "while"

/-- All reserved words. -/
def all : List Keyword :=
  [define, «do», «if», elif, «else», «while»]

/-- The reserved word that a text spells, if it spells one. -/
def ofText? (word : String) : Option Keyword :=
  all.find? fun reserved => reserved.text == word

/-- The name of the token kind of a reserved word. -/
def kindName : Keyword → String
  | define => "DEFINE"
  | «do» => "DO"
  | «if» => "IF"
  | elif => "ELIF"
  | «else» => "ELSE"
  | «while» => "WHILE"

end Keyword

/-- What a token is. -/
inductive TokenKind where
  /-- A word that is not reserved. -/
  | identifier (name : String)
  /-- A run of decimal digits. -/
  | number (digits : String)
  | colon
  /-- The end of a line with code, or a gap of blank lines before one. -/
  | newline
  /-- A block opens. -/
  | indent
  /-- A block closes. -/
  | dedent
  | keyword (reserved : Keyword)
  /-- The end of the input. -/
  | eof
  deriving DecidableEq, Repr

namespace TokenKind

/-- The token kind of a word. -/
def ofWord (word : String) : TokenKind :=
  match Keyword.ofText? word with
  | some reserved => .keyword reserved
  | none => .identifier word

/-- The name under which a kind is listed. -/
def name : TokenKind → String
  | identifier _ => "IDENTIFIER"
  | number _ => "NUMBER"
  | colon => "COLON"
  | newline => "NEWLINE"
  | indent => "INDENT"
  | dedent => "DEDENT"
  | keyword reserved => reserved.kindName
  | eof => "EOF"

/-- The source text of a token. Structural tokens have none. -/
def text? : TokenKind → Option String
  | identifier name => some name
  | number digits => some digits
  | colon => some ":"
  | keyword reserved => some reserved.text
  | newline | indent | dedent | eof => none

end TokenKind

/-- The least number that is too large to have a value: numbers are kept in 32 bits. -/
def numberLimit : Nat :=
  4294967296

namespace TokenKind

/-- The value of a number token, unless it is too large to have one. -/
def value? : TokenKind → Option Nat
  | number digits =>
    let value := decimalValue digits.toList
    if value < numberLimit then some value else none
  | _ => none

end TokenKind

/-- A token and the 0-based line it stands on. -/
structure Token where
  kind : TokenKind
  line : Nat
  deriving DecidableEq, Repr

/-- The token that stands for the end of an input. -/
def Token.endOfInput (line : Nat) : Token where
  kind := .eof
  line := line

end Karel
