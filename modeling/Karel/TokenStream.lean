import Karel.Layout

/-!
# Token streams

A token stream is a reading position in the tokens of one source text. Reading at the end of the
input yields the `eof` token again and again, and does not move.

## Main definitions

- `TokenStream` — the tokens of a source, those still ahead, and the line of the end
- `TokenStream.ofSource` — the stream at the start of a source text
- `TokenStream.peek`, `TokenStream.next` — look at the next token, read it
- `TokenStream.count` — the number of tokens of the whole source
-/

namespace Karel

/-- A reading position in the tokens of a source text. -/
structure TokenStream where
  /-- The tokens of the whole source, without the end of the input. -/
  tokens : List Token
  /-- The tokens that are still to be read. -/
  ahead : List Token
  /-- The line on which the input ends. -/
  endLine : Nat
  deriving DecidableEq, Repr

namespace TokenStream

/-- The stream at the start of a source text. -/
def ofSource (source : String) : TokenStream where
  tokens := scan source
  ahead := scan source
  endLine := Karel.endLine source

/-- All tokens of the source, the end of the input included. -/
def toList (stream : TokenStream) : List Token :=
  stream.tokens ++ [Token.endOfInput stream.endLine]

/-- The tokens that are still to be read, the end of the input included. -/
def remaining (stream : TokenStream) : List Token :=
  stream.ahead ++ [Token.endOfInput stream.endLine]

/-- The number of tokens of the source before the end of the input. -/
def count (stream : TokenStream) : Nat :=
  stream.tokens.length

/-- The next token. -/
def peek (stream : TokenStream) : Token :=
  stream.ahead.headD (Token.endOfInput stream.endLine)

/-- The stream after its next token. -/
def advance (stream : TokenStream) : TokenStream :=
  { stream with ahead := stream.ahead.tail }

/-- Reads the next token. -/
def next (stream : TokenStream) : Token × TokenStream :=
  (stream.peek, stream.advance)

end TokenStream

end Karel
