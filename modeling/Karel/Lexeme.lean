import Karel.Glyph
import Karel.Token

/-!
# Lexemes

A line of code is cut into words, numbers, colons and skipped glyphs, each word and number as
long as it can be. Nothing is lost: the lexemes put together again are the line.

## Main definitions

- `Lexeme` — a piece of a line
- `lexemes` — the pieces of a line, from left to right
- `Lexeme.kind?` — the token that a piece becomes
- `isName` — the texts that are one identifier and nothing else
-/

namespace Karel

/-- A piece of a line of code. -/
inductive Lexeme where
  /-- Letters and digits that begin with a letter. -/
  | word (text : List Char)
  /-- A run of digits. -/
  | number (digits : List Char)
  | colon
  /-- A glyph that only keeps its neighbours apart. -/
  | skipped (glyph : Glyph)
  deriving DecidableEq, Repr

/-- The lexemes of a text that begins with a letter, given the lexemes of what follows it. The
    letter takes in the number and the word that follow it at once. -/
def Lexeme.consLetter (char : Char) : List Lexeme → List Lexeme
  -- digits inside a word were taken for a number with a word after it
  | .number digits :: .word text :: rest => .word (char :: digits ++ text) :: rest
  | .number digits :: rest => .word (char :: digits) :: rest
  | .word text :: rest => .word (char :: text) :: rest
  | rest => .word [char] :: rest

/-- The lexemes of a text that begins with a digit, given the lexemes of what follows it. -/
def Lexeme.consDigit (char : Char) : List Lexeme → List Lexeme
  | .number digits :: rest => .number (char :: digits) :: rest
  | rest => .number [char] :: rest

/-- The pieces of a line, each as long as it can be, from left to right. -/
def lexemes : List Glyph → List Lexeme
  | [] => []
  | .letter char :: rest => Lexeme.consLetter char (lexemes rest)
  | .digit char :: rest => Lexeme.consDigit char (lexemes rest)
  | .colon :: rest => .colon :: lexemes rest
  | glyph :: rest => .skipped glyph :: lexemes rest

/-- Digits begin no word, but they go on in one. -/
example : lexemes (glyphs "2a b2") =
    [.number ['2'], .word ['a'], .skipped .blank, .word ['b', '2']] := by decide

/-- The kind of token that a lexeme becomes, if it becomes one. -/
def Lexeme.kind? : Lexeme → Option TokenKind
  | word text => some (TokenKind.ofWord (String.ofList text))
  | number digits => some (.number (String.ofList digits))
  | colon => some .colon
  | skipped _ => none

/-- A letter or a digit. -/
def Glyph.isWordGlyph : Glyph → Bool
  | letter _ | digit _ => true
  | _ => false

/-- A text is a name if it is a word, that is, letters and digits beginning with a letter, and the
    word is not reserved. -/
def isName (text : String) : Bool :=
  match text.toList.map Glyph.ofChar with
  | .letter _ :: rest => rest.all Glyph.isWordGlyph && (Keyword.ofText? text).isNone
  | _ => false

end Karel
