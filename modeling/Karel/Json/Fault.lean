import Karel.Json.Found

/-!
# Faults in JSON texts

Why a text is not the JSON that is asked for, and where this shows.

## Main definitions

- `Json.Cause` — what is wrong
- `Json.Place` — a line and a column
- `Json.Fault` — what is wrong, and from where on
- `Json.Fault.place` — the line and the column of a fault in a whole text
-/

namespace Karel

namespace Json

/-- What is wrong with a JSON text. -/
inductive Cause where
  /-- The text ends inside an array. -/
  | openArray
  /-- The text ends inside an object. -/
  | openObject
  /-- The text ends inside a string. -/
  | openString
  /-- The text ends where a value is expected, or inside one. -/
  | noValue
  | expectedColon
  | expectedItemEnd
  | expectedFieldEnd
  /-- A word that begins like `null`, `true` or `false` goes on differently. -/
  | expectedWord
  | expectedValue
  | badEscape
  | badNumber
  | hugeNumber
  | controlCharacter
  | keyNotString
  /-- The second half of a surrogate pair without the first, or the first without the second. -/
  | loneSurrogate
  /-- The first half of a surrogate pair without any escape after it. -/
  | halfPair
  | trailingComma
  | trailingText
  /-- A value is of another kind than the one that is expected. -/
  | wrongKind (found : Found) (expected : String)
  /-- A field is given twice. -/
  | repeatedField (name : String)
  deriving DecidableEq, Repr

/-- What is wrong, in words. -/
def Cause.message : Cause → String
  | openArray => "EOF while parsing a list"
  | openObject => "EOF while parsing an object"
  | openString => "EOF while parsing a string"
  | noValue => "EOF while parsing a value"
  | expectedColon => "expected `:`"
  | expectedItemEnd => "expected `,` or `]`"
  | expectedFieldEnd => "expected `,` or `\x7d`"
  | expectedWord => "expected ident"
  | expectedValue => "expected value"
  | badEscape => "invalid escape"
  | badNumber => "invalid number"
  | hugeNumber => "number out of range"
  | controlCharacter => "control character (\\u0000-\\u001F) found while parsing a string"
  | keyNotString => "key must be a string"
  | loneSurrogate => "lone leading surrogate in hex escape"
  | halfPair => "unexpected end of hex escape"
  | trailingComma => "trailing comma"
  | trailingText => "trailing characters"
  | wrongKind found expected => s!"invalid type: {found.text}, expected {expected}"
  | repeatedField name => s!"duplicate field `{name}`"

/-- A place in a text: a line, counted from 1, and the number of bytes before the place in it. -/
structure Place where
  line : Nat
  column : Nat
  deriving DecidableEq, Repr

namespace Place

/-- The place after one more byte. -/
def after (place : Place) (byte : UInt8) : Place :=
  if byte = 10 then { line := place.line + 1, column := 0 }
  else { place with column := place.column + 1 }

/-- The place at the end of a text. -/
def ofBytes (bytes : List UInt8) : Place :=
  bytes.foldl after { line := 1, column := 0 }

end Place

/-- The bytes of a text. -/
def utf8Bytes (text : List Char) : List UInt8 :=
  text.flatMap String.utf8EncodeChar

/-- What is wrong with a text, and where the reader stood. -/
structure Fault where
  cause : Cause
  /-- The text that was not read. -/
  ahead : List Char
  /-- How many bytes of it the reader had looked at nevertheless. -/
  seen : Nat
  deriving DecidableEq, Repr

namespace Fault

/-- The fault that the text ends. -/
def atEnd (cause : Cause) : Fault where
  cause := cause
  ahead := []
  seen := 0

/-- The fault that shows before some text. -/
def before (cause : Cause) (ahead : List Char) : Fault where
  cause := cause
  ahead := ahead
  seen := 0

/-- The fault that shows at the next character. -/
def next (cause : Cause) (ahead : List Char) : Fault where
  cause := cause
  ahead := ahead
  seen := 1

/-- The place of a fault in a whole text. -/
def place (fault : Fault) (text : List Char) : Place :=
  let bytes := utf8Bytes text
  .ofBytes (bytes.take (bytes.length - (utf8Bytes fault.ahead).length + fault.seen))

end Fault

end Json

end Karel
