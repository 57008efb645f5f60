/-!
# JSON values

The JSON values that programs, tokens and capabilities are written as, and their two printed
forms. There are no negative numbers and no fractions among them.

## Main definitions

- `Json` — a JSON value, with the fields of an object in order
- `Json.escape`, `Json.quote` — a text as the inside of a JSON string, and as a JSON string
- `Json.compact` — the printed form without any space
- `Json.pretty` — the printed form with one item a line, indented by two spaces a level
-/

namespace Karel

/-- A JSON value. -/
inductive Json where
  | null
  | number (value : Nat)
  | string (text : String)
  | array (items : List Json)
  | object (fields : List (String × Json))

namespace Json

/-- A hexadecimal digit in lower case. -/
def hexDigit (value : Nat) : Char :=
  if value < 10 then Char.ofNat ('0'.toNat + value) else Char.ofNat ('a'.toNat + (value - 10))

/-- A character as it is written in a JSON string. Quotes, backslashes and control characters are
    escaped, by a letter of their own if they have one, and all others are written as they are. -/
def escape (char : Char) : List Char :=
  if char = '"' then ['\\', '"']
  else if char = '\\' then ['\\', '\\']
  else if char.toNat = 8 then ['\\', 'b']
  else if char.toNat = 12 then ['\\', 'f']
  else if char = '\n' then ['\\', 'n']
  else if char = '\r' then ['\\', 'r']
  else if char = '\t' then ['\\', 't']
  else if char.toNat < 32 then
    ['\\', 'u', '0', '0', hexDigit (char.toNat / 16), hexDigit (char.toNat % 16)]
  else [char]

/-- A text as a JSON string. -/
def quote (text : String) : List Char :=
  '"' :: (text.toList.flatMap escape ++ ['"'])

/-- A number as JSON writes it. -/
def digits (value : Nat) : List Char :=
  Nat.toDigits 10 value

mutual

/-- The characters of a value without any space. -/
def compactChars : Json → List Char
  | .null => "null".toList
  | .number value => digits value
  | .string text => quote text
  | .array items => '[' :: (compactItems items ++ [']'])
  | .object fields => '\x7b' :: (compactFields fields ++ ['\x7d'])

/-- The items of an array, with commas between them. -/
def compactItems : List Json → List Char
  | [] => []
  | [item] => item.compactChars
  | item :: next :: more => item.compactChars ++ ',' :: compactItems (next :: more)

/-- The fields of an object, with commas between them. -/
def compactFields : List (String × Json) → List Char
  | [] => []
  | [(key, value)] => quote key ++ ':' :: value.compactChars
  | (key, value) :: next :: more =>
    quote key ++ ':' :: (value.compactChars ++ ',' :: compactFields (next :: more))

end

/-- The start of a line at a depth. -/
def newLine (depth : Nat) : List Char :=
  '\n' :: List.replicate (2 * depth) ' '

mutual

/-- The characters of a value at a depth, with one item a line. An empty list takes no line. -/
def prettyChars (depth : Nat) : Json → List Char
  | .null => "null".toList
  | .number value => digits value
  | .string text => quote text
  | .array [] => ['[', ']']
  | .array (item :: more) =>
    '[' :: (prettyItems (depth + 1) (item :: more) ++ newLine depth ++ [']'])
  | .object [] => ['\x7b', '\x7d']
  | .object (field :: more) =>
    '\x7b' :: (prettyFields (depth + 1) (field :: more) ++ newLine depth ++ ['\x7d'])

/-- The items of an array, each on a line of its own. -/
def prettyItems (depth : Nat) : List Json → List Char
  | [] => []
  | [item] => newLine depth ++ item.prettyChars depth
  | item :: next :: more =>
    newLine depth ++ item.prettyChars depth ++ ',' :: prettyItems depth (next :: more)

/-- The fields of an object, each on a line of its own. -/
def prettyFields (depth : Nat) : List (String × Json) → List Char
  | [] => []
  | [(key, value)] => newLine depth ++ quote key ++ ':' :: ' ' :: value.prettyChars depth
  | (key, value) :: next :: more =>
    newLine depth ++ quote key
      ++ ':' :: ' ' :: (value.prettyChars depth ++ ',' :: prettyFields depth (next :: more))

end

/-- The printed form of a value without any space. -/
def compact (value : Json) : String :=
  String.ofList value.compactChars

/-- The printed form of a value with one item a line. -/
def pretty (value : Json) : String :=
  String.ofList (value.prettyChars 0)

end Json

end Karel
