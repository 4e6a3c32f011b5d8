import Retrieval.Number.Binary

/-!
# Shortest decimals

The shortest decimal that reads back as a given binary value. The decimals that round to a value
fill an interval around it, which holds its ends exactly when the significand is even. Among the
grids of one, two, three and more significant digits the first one with a point in that interval
decides; one of the two neighbours of the value on the grid is then such a point.
-/

namespace Retrieval.Number

/-- A decimal `digits · 10 ^ exponent`. -/
structure Decimal where
  /-- The digits, read as one number. -/
  digits : Nat
  /-- The power of ten of the last digit. -/
  exponent : Int
deriving DecidableEq, Repr

/-- The decimals that read back as a value: the closed or open interval between two fractions of one
denominator, around the value itself. -/
structure Neighbourhood where
  /-- Numerator of the lower end. -/
  lower : Nat
  /-- Numerator of the value. -/
  value : Nat
  /-- Numerator of the upper end. -/
  upper : Nat
  /-- The denominator of all three. -/
  denominator : Nat
  /-- The ends belong to the interval. -/
  closed : Bool

namespace Neighbourhood

/-- The interval of a positive value. Below a power of two the next smaller value is only half as
far away as the next greater one, but for the smallest exponent. -/
def ofBinary (value : Binary) : Neighbourhood :=
  let below := if value.significand = Binary64.exponentUnit ∧ -1074 < value.exponent then 1 else 2
  let unit := Nat.pow 2 value.exponent.toNat
  { lower := (4 * value.significand - below) * unit
    value := 4 * value.significand * unit
    upper := (4 * value.significand + 2) * unit
    denominator := 4 * value.denominator
    closed := value.significand % 2 = 0 }

/-- The fraction `numerator / scale`, on the denominator of the interval, lies in it. -/
def contains (interval : Neighbourhood) (numerator scale : Nat) : Bool :=
  let point := numerator * interval.denominator
  if interval.closed then
    interval.lower * scale ≤ point && point ≤ interval.upper * scale
  else
    interval.lower * scale < point && point < interval.upper * scale

/-- The point of the grid `10 ^ exponent` that lies in the interval and is nearest to the value; of
two equally near ones the greater. -/
def onGrid? (interval : Neighbourhood) (exponent : Int) : Option Decimal :=
  let unit := Nat.pow 10 exponent.toNat
  let scale := Nat.pow 10 (-exponent).toNat
  let floor := interval.value * scale / (interval.denominator * unit)
  let belowIn := interval.contains (floor * unit) scale && floor ≠ 0
  let aboveIn := interval.contains ((floor + 1) * unit) scale
  let remainder := interval.value * scale % (interval.denominator * unit)
  if belowIn && aboveIn then
    if 2 * remainder < interval.denominator * unit then some ⟨floor, exponent⟩
    else some ⟨floor + 1, exponent⟩
  else if belowIn then some ⟨floor, exponent⟩
  else if aboveIn then some ⟨floor + 1, exponent⟩
  else none

/-- The first hit on the grids from `10 ^ exponent` downwards, `grids` of them. -/
def firstHit (interval : Neighbourhood) : Nat → Int → Option Decimal
  | 0, _ => none
  | grids + 1, exponent =>
      match interval.onGrid? exponent with
      | some decimal => some decimal
      | none => firstHit interval grids (exponent - 1)

end Neighbourhood

/-- The number of decimal digits of a natural number; zero has one. -/
def digitCount (number : Nat) : Nat :=
  (Nat.toDigits 10 number).length

/-- The power of ten of the leading digit of a positive fraction. -/
def leadingExponent (numerator denominator : Nat) : Int :=
  if denominator ≤ numerator then
    (digitCount (numerator / denominator) : Int) - 1
  else
    -- The least power of ten that brings the fraction to one or more.
    let guess := digitCount (denominator / numerator)
    if denominator ≤ numerator * Nat.pow 10 (guess - 1) then 1 - (guess : Int) else -(guess : Int)

/-- The shortest decimal that reads back as a positive value: seventeen digits always suffice. -/
def shortestDecimal (value : Binary) : Decimal :=
  let interval := Neighbourhood.ofBinary value
  let leading := leadingExponent interval.value interval.denominator
  match interval.firstHit 18 (leading + 1) with
  | some decimal => decimal
  | none => ⟨0, 0⟩

end Retrieval.Number
