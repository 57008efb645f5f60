import Karel.Json
import Karel.Json.Number
import Karel.Visible

/-!
# Values out of place

What is said of a JSON value that stands where a value of another kind is expected.

## Main definitions

- `Json.Found` — a value, as far as it is named in a report
- `Json.Found.ofNumber` — a number that was found
- `Json.Found.text` — a value in words
-/

namespace Karel

namespace Json

/-- A value that was found where another kind of value is expected. -/
inductive Found where
  | null
  | boolean (value : Bool)
  | integer (value : Int)
  | decimal (value : DecimalFraction)
  | string (text : String)
  | array
  | object
  deriving DecidableEq, Repr

/-- A character as it is written in a report. One that would not be seen is written as its code
    point. -/
def shownChar (char : Char) : List Char :=
  if char = '"' then ['\\', '"']
  else if char = '\\' then ['\\', '\\']
  else if char = '\n' then ['\\', 'n']
  else if char = '\r' then ['\\', 'r']
  else if char = '\t' then ['\\', 't']
  else if char.toNat = 0 then ['\\', '0']
  else if isVisible char then [char]
  else ['\\', 'u', '\x7b'] ++ Nat.toDigits 16 char.toNat ++ ['\x7d']

/-- A text as it is written in a report. -/
def shownText (text : String) : String :=
  String.ofList ('"' :: text.toList.flatMap shownChar ++ ['"'])

namespace Found

/-- The number that a text denotes, unless it is too large. A number that is no integer of 64 bits is
    kept as a decimal. -/
def ofNumber (number : NumberText) : Option Found :=
  match number.integer? with
  | some value => some (.integer value)
  | none => number.fraction?.map decimal

/-- A value in words. -/
def text : Found → String
  | null => "null"
  | boolean value => s!"boolean `{value}`"
  | integer value => s!"integer `{value}`"
  | decimal value => s!"floating point `{value.text}`"
  | string text => "string " ++ shownText text
  | array => "sequence"
  | object => "map"

end Found

end Json

end Karel
