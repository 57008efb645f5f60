/-!
# Notation of decimal fractions

## Main definitions

- `DecimalFraction` — a number as its digits and the place of the point
- `DecimalFraction.text` — how it is written
-/

namespace Karel

/-- The number `0.DIGITS` times a power of ten, or its negative. -/
structure DecimalFraction where
  negative : Bool
  /-- The digits, of which neither the first nor the last is a zero. Zero has none. -/
  digits : List Char
  /-- The number of digits before the point. -/
  point : Int
  deriving DecidableEq, Repr

namespace DecimalFraction

/-- A run of zeros. -/
def zeros (count : Int) : List Char :=
  List.replicate count.toNat '0'

/-- An exponent with its sign and at least two digits. -/
def exponentText (exponent : Int) : List Char :=
  let digits := Nat.toDigits 10 exponent.natAbs
  'e' :: (if exponent < 0 then '-' else '+') :: (zeros (2 - digits.length) ++ digits)

/-- The digits of a number other than zero with their point. A number with at most sixteen digits
    before the point and less than five zeros behind it is written out, any other one with an
    exponent and one digit before the point. -/
def magnitudeText (digits : List Char) (point : Int) : List Char :=
  if 0 < point ∧ point ≤ 16 then
    if digits.length ≤ point then digits ++ zeros (point - digits.length) ++ ['.', '0']
    else digits.take point.toNat ++ '.' :: digits.drop point.toNat
  else if -5 < point ∧ point ≤ 0 then '0' :: '.' :: zeros (-point) ++ digits
  else match digits with
    | [digit] => digit :: exponentText (point - 1)
    | digits => digits.take 1 ++ '.' :: digits.drop 1 ++ exponentText (point - 1)

/-- The text of a number. Zero has a digit on either side of the point. -/
def text (number : DecimalFraction) : String :=
  (if number.negative then "-" else "") ++
    String.ofList (if number.digits.isEmpty then ['0', '.', '0']
      else magnitudeText number.digits number.point)

end DecimalFraction

end Karel
