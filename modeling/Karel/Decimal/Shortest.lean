import Karel.Decimal.Notation

/-!
# Shortest decimals of machine numbers

A machine number stands for all numbers that are nearer to it than to its neighbours. It is written
with the fewest digits that denote one of them.

## Main definitions

- `MachineNumber` — a number of 64 bits without its sign, as a significand and a power of two
- `MachineNumber.includes` — whether a decimal is among the numbers that a machine number stands for
- `MachineNumber.shortest` — the shortest of these decimals
- `DecimalFraction.ofFloat` — the shortest decimal of a machine number with a sign, or zero
-/

namespace Karel

/-- The number of significands of one exponent. -/
def significandCount : Nat :=
  4503599627370496

/-- The machine number `significand` times two to the power of `exponent`. -/
structure MachineNumber where
  significand : Nat
  exponent : Int
  /-- The neighbour below is only half as far away as the one above. -/
  narrowBelow : Bool
  deriving DecidableEq, Repr

namespace MachineNumber

/-- The machine number in 64 bits, of which the sign is not looked at. -/
def ofBits (bits : Nat) : MachineNumber :=
  let field := bits / significandCount % 2048
  let fraction := bits % significandCount
  if field = 0 then { significand := fraction, exponent := -1074, narrowBelow := false }
  else {
    significand := significandCount + fraction
    exponent := (field : Int) - 1075
    narrowBelow := fraction = 0 && field ≠ 1 }

/-- A natural power whose exponent, if negative, counts as zero. -/
def power (base : Nat) (exponent : Int) : Nat :=
  Nat.pow base exponent.toNat

/-- The factors by which a count of units of ten to the power of `place`, and a count of quarters of
    the unit of the machine number, have to be multiplied before they can be compared. -/
def scales (number : MachineNumber) (place : Int) : Nat × Nat :=
  let quarter := number.exponent - 2
  (power 10 place * power 2 (-quarter), power 10 (-place) * power 2 quarter)

/-- A machine number stands for `count` units of ten to the power of `place`. The ends of the
    interval belong to it if its significand is even. -/
def includes (number : MachineNumber) (count : Nat) (place : Int) : Bool :=
  let (unit, quarter) := number.scales place
  let value := count * unit
  let low := (4 * number.significand - if number.narrowBelow then 1 else 2) * quarter
  let high := (4 * number.significand + 2) * quarter
  (low < value && value < high)
    || (number.significand % 2 = 0 && (value = low || value = high))

/-- The whole units of ten to the power of `place` in a machine number. -/
def unitsBelow (number : MachineNumber) (place : Int) : Nat :=
  let (unit, quarter) := number.scales place
  4 * number.significand * quarter / unit

/-- The number of digits before the point. It is negative if zeros follow the point. No machine
    number has as many zeros as the 400 by which the point is moved first. -/
def point (number : MachineNumber) : Int :=
  ((Nat.toDigits 10 (number.unitsBelow (-400))).length : Int) - 400

/-- The multiple of ten to the power of `place` that is nearest to a machine number, of those that it
    stands for. Of two that are equally near it is the even one. -/
def nearest? (number : MachineNumber) (place : Int) : Option Nat :=
  let (unit, quarter) := number.scales place
  let below := number.unitsBelow place
  let above := below + 1
  match number.includes below place, number.includes above place with
  | true, true =>
    let twice := 2 * (4 * number.significand * quarter)
    let middle := (below + above) * unit
    if twice < middle ∨ (twice = middle ∧ below % 2 = 0) then some below else some above
  | true, false => some below
  | false, true => some above
  | false, false => none

/-- The shortest decimal that a machine number stands for, as a multiple of a power of ten. Seventeen
    digits are always enough. -/
def shortest (number : MachineNumber) : Nat × Int :=
  let places := (List.range 17).map fun (digits : Nat) => number.point - ((digits : Int) + 1)
  let found := places.findSome? fun place => (number.nearest? place).map fun count => (count, place)
  found.getD (number.unitsBelow (number.point - 17), number.point - 17)

end MachineNumber

/-- The shortest decimal of a machine number with a sign. -/
def DecimalFraction.ofFloat (negative : Bool) (value : Float) : DecimalFraction :=
  let number := MachineNumber.ofBits value.toBits.toNat
  if number.significand = 0 then { negative, digits := [], point := 0 }
  else
    let (count, place) := number.shortest
    let digits := Nat.toDigits 10 count
    {
      negative := negative
      digits := (digits.reverse.dropWhile (· = '0')).reverse
      point := digits.length + place }

end Karel
