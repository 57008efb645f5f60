import Karel.Capabilities
import Karel.Statement
import Karel.TokenStream

/-!
# Grammar

The grammar of the language, as derivations that relate tokens and trees. A value of type
`…Derivation capabilities tokens tree rest` is one way to read a phrase at the start of `tokens`:
the tree of the phrase is `tree`, and `rest` is what follows it. The input ends in an `eof` token,
which no phrase but the program takes in.

## Main definitions

- `Grammar.EndsStatement` — the end of a simple statement
- `Grammar.BlockDerivation`, `Grammar.StatementDerivation`, `Grammar.ArmsDerivation`,
  `Grammar.BodyDerivation` — the phrases of the language
- `Grammar.ProgramDerivation` — the token lists that are programs, with their trees

## Design notes

A block may be left at any point, so the derivations alone do not say how far it reaches. Only a
program has to take in all tokens.

Derivations are data rather than propositions: a tree keeps no line for its `else` arms, but its
derivation does.
-/

namespace Karel.Grammar

/-- A simple statement is followed by a `newline`, which belongs to it, or by the end of its
    block, which does not. -/
inductive EndsStatement : List Token → List Token → Prop where
  | newline (line : Nat) (rest : List Token) : EndsStatement (⟨.newline, line⟩ :: rest) rest
  | dedent (line : Nat) (rest : List Token) :
    EndsStatement (⟨.dedent, line⟩ :: rest) (⟨.dedent, line⟩ :: rest)
  | eof (line : Nat) (rest : List Token) :
    EndsStatement (⟨.eof, line⟩ :: rest) (⟨.eof, line⟩ :: rest)

mutual

/-- A block is any number of statements, with any number of `newline` tokens between them. -/
inductive BlockDerivation (capabilities : Capabilities) :
    List Token → Block → List Token → Type where
  | nil (tokens : List Token) : BlockDerivation capabilities tokens [] tokens
  | newline {line : Nat} {tokens rest : List Token} {block : Block}
      (others : BlockDerivation capabilities tokens block rest) :
    BlockDerivation capabilities (⟨.newline, line⟩ :: tokens) block rest
  | cons {tokens middle rest : List Token} {statement : Statement} {block : Block}
      (first : StatementDerivation capabilities tokens statement middle)
      (others : BlockDerivation capabilities middle block rest) :
    BlockDerivation capabilities tokens (statement :: block) rest

/-- A statement has the line of its first token. -/
inductive StatementDerivation (capabilities : Capabilities) :
    List Token → Statement → List Token → Type where
  | command {name : String} {line : Nat} {tokens rest : List Token}
      (known : name ∈ capabilities.commands) (ends : EndsStatement tokens rest) :
    StatementDerivation capabilities (⟨.identifier name, line⟩ :: tokens)
      (.command (.command name) line) rest
  | call {name : String} {line : Nat} {tokens rest : List Token}
      (unknown : name ∉ capabilities.commands) (ends : EndsStatement tokens rest) :
    StatementDerivation capabilities (⟨.identifier name, line⟩ :: tokens) (.call name line) rest
  | doTimes {digits : String} {count line numberLine : Nat} {tokens rest : List Token}
      {block : Block} (value : (TokenKind.number digits).value? = some count)
      (positive : 0 < count) (body : BodyDerivation capabilities tokens block rest) :
    StatementDerivation capabilities
      (⟨.keyword .«do», line⟩ :: ⟨.number digits, numberLine⟩ :: tokens)
      (.doTimes .repetition count block line) rest
  | ifElse {name : String} {line nameLine : Nat} {tokens middle rest : List Token}
      {block : Block} {others : Arms} (known : name ∈ capabilities.conditions)
      (body : BodyDerivation capabilities tokens block middle)
      (arms : ArmsDerivation capabilities middle others rest) :
    StatementDerivation capabilities
      (⟨.keyword .«if», line⟩ :: ⟨.identifier name, nameLine⟩ :: tokens)
      (.ifElse (.condition name) block others line) rest
  | whileDo {name : String} {line nameLine : Nat} {tokens rest : List Token} {block : Block}
      (known : name ∈ capabilities.conditions)
      (body : BodyDerivation capabilities tokens block rest) :
    StatementDerivation capabilities
      (⟨.keyword .«while», line⟩ :: ⟨.identifier name, nameLine⟩ :: tokens)
      (.whileDo (.condition name) block line) rest
  | define {name : String} {line nameLine : Nat} {tokens rest : List Token} {block : Block}
      (body : BodyDerivation capabilities tokens block rest) :
    StatementDerivation capabilities
      (⟨.keyword .define, line⟩ :: ⟨.identifier name, nameLine⟩ :: tokens)
      (.define name block line) rest

/-- The arms after the body of an `if`. Any number of `newline` tokens may precede an arm. -/
inductive ArmsDerivation (capabilities : Capabilities) :
    List Token → Arms → List Token → Type where
  | done (tokens : List Token) : ArmsDerivation capabilities tokens .done tokens
  | newline {line : Nat} {tokens rest : List Token} {arms : Arms} (precedes : arms ≠ .done)
      (others : ArmsDerivation capabilities tokens arms rest) :
    ArmsDerivation capabilities (⟨.newline, line⟩ :: tokens) arms rest
  | elif {name : String} {line nameLine : Nat} {tokens middle rest : List Token} {block : Block}
      {next : Arms} (known : name ∈ capabilities.conditions)
      (body : BodyDerivation capabilities tokens block middle)
      (others : ArmsDerivation capabilities middle next rest) :
    ArmsDerivation capabilities
      (⟨.keyword .elif, line⟩ :: ⟨.identifier name, nameLine⟩ :: tokens)
      (.elif (.condition name) line block next) rest
  | otherwise {line : Nat} {tokens rest : List Token} {block : Block}
      (body : BodyDerivation capabilities tokens block rest) :
    ArmsDerivation capabilities (⟨.keyword .«else», line⟩ :: tokens) (.otherwise block) rest

/-- What follows the header of a compound statement: a colon, a new line, and an indented block. -/
inductive BodyDerivation (capabilities : Capabilities) :
    List Token → Block → List Token → Type where
  | intro {colonLine newlineLine indentLine dedentLine : Nat} {tokens rest : List Token}
      {block : Block}
      (inner : BlockDerivation capabilities tokens block (⟨.dedent, dedentLine⟩ :: rest)) :
    BodyDerivation capabilities
      (⟨.colon, colonLine⟩ :: ⟨.newline, newlineLine⟩ :: ⟨.indent, indentLine⟩ :: tokens)
      block rest

end

/-- A program is a block that takes in all tokens up to the `eof`, which is the last one. -/
structure ProgramDerivation (capabilities : Capabilities) (tokens : List Token) (block : Block) where
  /-- The line of the `eof`. -/
  endLine : Nat
  /-- The block before the `eof`. -/
  root : BlockDerivation capabilities tokens block [Token.endOfInput endLine]

end Karel.Grammar
