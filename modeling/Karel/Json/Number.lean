import Karel.Decimal
import Karel.Decimal.Scientific
import Karel.Decimal.Shortest

/-!
# JSON numbers

## Main definitions

- `Json.NumberText` — the parts of a number as it is written
- `Json.NumberText.integer?`, `Json.NumberText.fraction?` — its value
-/

namespace Karel

namespace Json

/-- The parts of a number as it is written. -/
structure NumberText where
  negative : Bool
  /-- The digits before the point. -/
  whole : List Char
  /-- The digits behind the point. -/
  fraction : List Char
  negativePower : Bool
  /-- The digits of the exponent. -/
  power : List Char
  /-- There is neither a point nor an exponent. -/
  plain : Bool
  deriving DecidableEq, Repr

/-- The digits of an exponent after the one with which it no longer fits in 32 bits. -/
def digitsBeyond (value : Nat) : List Char → List Char
  | [] => []
  | digit :: rest =>
    let next := 10 * value + (digit.toNat - '0'.toNat)
    if next < 2147483648 then digitsBeyond next rest else rest

namespace NumberText

/-- The parts of a well-formed number. -/
def ofText (text : List Char) : NumberText :=
  let negative := text.head? = some '-'
  let unsigned := if negative then text.drop 1 else text
  let behind := unsigned.dropWhile Char.isDigit
  let exponent := (behind.dropWhile fun char => char ≠ 'e' && char ≠ 'E').drop 1
  {
    negative := negative
    whole := unsigned.takeWhile Char.isDigit
    fraction := if behind.head? = some '.' then (behind.drop 1).takeWhile Char.isDigit else []
    negativePower := exponent.head? = some '-'
    power := exponent.filter Char.isDigit
    plain := behind.isEmpty }

/-- The value of a number without point and exponent, if it fits in 64 bits, with a sign if there is
    one. A zero with a sign is no integer. -/
def integer? (number : NumberText) : Option Int :=
  let value := decimalValue number.whole
  if !number.plain then none
  else if !number.negative && value < wordLimit then some value
  else if number.negative && 0 < value && 2 * value ≤ wordLimit then some (-value)
  else none

/-- The value of any number as a decimal, unless it is too large. -/
def fraction? (number : NumberText) : Option DecimalFraction :=
  let power : Int := decimalValue number.power
  let magnitude := Scientific.ofParts number.whole number.fraction
    (if number.negativePower then -power else power)
  magnitude.toFloat?.map (DecimalFraction.ofFloat number.negative)

end NumberText

end Json

end Karel
