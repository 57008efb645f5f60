/-!
# Reading decimals as machine numbers

A number that is written with a point or an exponent is read as a whole number of 64 bits times a
power of ten, and this product is computed in machine numbers. So it is rounded more than once.

## Main definitions

- `Scientific` — a whole number times a power of ten
- `Scientific.ofParts` — the digits of a number, as far as they fit in 64 bits
- `Scientific.toFloat?` — the product, unless it is too large
-/

namespace Karel

/-- The least whole number that does not fit in 64 bits. -/
def wordLimit : Nat :=
  18446744073709551616

/-- Takes digits in as long as the number fits in 64 bits, and leaves the other digits. -/
def takeDigits (value : Nat) : List Char → Nat × List Char
  | [] => (value, [])
  | digit :: rest =>
    let next := 10 * value + (digit.toNat - '0'.toNat)
    if next < wordLimit then takeDigits next rest else (value, digit :: rest)

/-- The number `significand` times ten to the power of `exponent`. -/
structure Scientific where
  significand : Nat
  exponent : Int
  deriving DecidableEq, Repr

/-- A power of ten as a machine number. -/
def powerOfTen (exponent : Nat) : Float :=
  Float.ofScientific 1 false exponent

/-- A number divided by a power of ten. One that is too large for a machine number is taken off in
    steps. -/
def divideByTens (value : Float) (count : Nat) : Float :=
  if count ≤ 308 then value / powerOfTen count
  else if value == 0 then value
  else divideByTens (value / powerOfTen 308) (count - 308)
termination_by count

namespace Scientific

/-- The number with some digits before the point and some behind it, times a power of ten. -/
def ofParts (whole fraction : List Char) (power : Int) : Scientific :=
  let (value, dropped) := takeDigits 0 whole
  let (value, ignored) := takeDigits value fraction
  {
    significand := value
    exponent := (dropped.length : Int) - (fraction.length - ignored.length) + power }

/-- The machine number for a number, unless it is too large to have one. -/
def toFloat? (number : Scientific) : Option Float :=
  let value := number.significand.toUInt64.toFloat
  if number.exponent < 0 then some (divideByTens value number.exponent.natAbs)
  else if number.exponent ≤ 308 then
    let product := value * powerOfTen number.exponent.toNat
    if product.isInf then none else some product
  else if number.significand = 0 then some value
  else none

end Scientific

end Karel
