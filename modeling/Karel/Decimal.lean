/-!
# Decimal numbers

## Main definitions

- `decimalValue` — the number that a run of digits denotes
-/

namespace Karel

/-- The number that a run of decimal digits denotes. -/
def decimalValue (digits : List Char) : Nat :=
  digits.foldl (fun value digit => 10 * value + (digit.toNat - '0'.toNat)) 0

end Karel
