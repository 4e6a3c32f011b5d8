/-!
# Binary floating-point values

A finite double-precision number is a natural significand times a power of two, with a sign. Its
neighbours, the decimals that round to it and its nearest integer are all found by arithmetic on
these natural numbers; `Binary64.ofFloat` reads them off the bits.
-/

namespace Retrieval.Number

/-- Where a quotient that lies midway between two integers goes. -/
inductive Tie where
  /-- To the even neighbour. -/
  | toEven
  /-- To the upper neighbour. -/
  | up
deriving DecidableEq, Repr

/-- The integer nearest to `numerator / denominator`. -/
def roundQuotient (tie : Tie) (numerator denominator : Nat) : Nat :=
  let floor := numerator / denominator
  let twice := 2 * (numerator % denominator)
  if twice < denominator then floor
  else if denominator < twice then floor + 1
  else match tie with
    | .toEven => floor + floor % 2
    | .up => floor + 1

/-- A finite value `significand · 2 ^ exponent`, negated when `negative`. -/
structure Binary where
  /-- The sign bit, which zero has as well. -/
  negative : Bool
  /-- The significand. -/
  significand : Nat
  /-- The power of two of the last bit of the significand. -/
  exponent : Int
deriving DecidableEq, Repr

namespace Binary

/-- Numerator of the magnitude as a fraction of two natural numbers. -/
def numerator (value : Binary) : Nat :=
  value.significand * Nat.pow 2 value.exponent.toNat

/-- Denominator of the magnitude as a fraction of two natural numbers. -/
def denominator (value : Binary) : Nat :=
  Nat.pow 2 (-value.exponent).toNat

end Binary

/-- What the bits of a double-precision number stand for. -/
inductive Binary64 where
  /-- No number. -/
  | undefined
  /-- An infinity. -/
  | infinite (negative : Bool)
  /-- A finite value. -/
  | finite (value : Binary)
deriving DecidableEq, Repr

namespace Binary64

/-- The value of the lowest exponent bit within a word: there are 52 fraction bits below it. -/
def exponentUnit : Nat := 4503599627370496

/-- The value of the sign bit within a word: there are 63 bits below it. -/
def signUnit : Nat := 9223372036854775808

/-- The value that a word of 64 bits stands for: a sign bit, eleven exponent bits and 52 fraction
bits. -/
def ofBits (bits : Nat) : Binary64 :=
  let negative := decide (signUnit ≤ bits)
  let exponent : Nat := bits / exponentUnit % 2048
  let fraction : Nat := bits % exponentUnit
  if exponent = 2047 then
    if fraction = 0 then .infinite negative else .undefined
  else if exponent = 0 then
    .finite ⟨negative, fraction, -1074⟩
  else
    .finite ⟨negative, exponentUnit + fraction, (exponent : Int) - 1075⟩

/-- The value of a double-precision number. -/
def ofFloat (number : Float) : Binary64 :=
  ofBits number.toBits.toNat

end Binary64

/-- The nearest integer, a half going away from zero. The sign of zero is kept. -/
def roundFloat (number : Float) : Float :=
  match Binary64.ofFloat number with
  | .finite value =>
      if 0 ≤ value.exponent then number
      else
        let magnitude := Float.ofNat (roundQuotient .up value.numerator value.denominator)
        if value.negative then -magnitude else magnitude
  | _ => number

end Retrieval.Number
