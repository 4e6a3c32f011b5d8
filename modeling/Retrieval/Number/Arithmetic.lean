import Retrieval.Number.Numeral

/-!
# Arithmetic of scores

Weights and scores are taken in a type with the operations below. A run uses double-precision
numbers; the formulas themselves do not depend on that choice, so they can be studied over an
ordered field as well.
-/

namespace Retrieval

/-- The operations that weights and scores are computed with. -/
class Arithmetic (ω : Type) extends Add ω, Sub ω, Mul ω, Div ω, LT ω, LE ω where
  /-- Comparison is decidable. -/
  decidableLT : DecidableLT ω
  /-- Comparison is decidable. -/
  decidableLE : DecidableLE ω
  /-- The number of that many units. -/
  ofNat : Nat → ω
  /-- The natural logarithm. -/
  log : ω → ω
  /-- The power of a base and an exponent. -/
  pow : ω → ω → ω
  /-- The nearest integer, a half going away from zero. -/
  round : ω → ω
  /-- The number is neither infinite nor undefined. -/
  isFinite : ω → Bool
  /-- The number that a text writes. -/
  read? : String → Option ω
  /-- The text of a number. -/
  write : ω → String

attribute [reducible, instance] Arithmetic.decidableLT Arithmetic.decidableLE

namespace Arithmetic

variable {ω : Type} [Arithmetic ω]

instance : Zero ω := ⟨ofNat 0⟩

instance : One ω := ⟨ofNat 1⟩

/-- The greater of two numbers; the other one if one of them is undefined. -/
def larger (left right : ω) : ω :=
  if left < right then right else if left ≤ left then left else right

/-- The smaller of two numbers; the other one if one of them is undefined. -/
def smaller (left right : ω) : ω :=
  if right < left then right else if left ≤ left then left else right

/-- The sum of a list, from left to right. -/
def sum (numbers : List ω) : ω :=
  numbers.foldl (· + ·) 0

/-- The sum of a list, from left to right, that begins with its first number. It is a negative zero
if all numbers are. -/
def sumFromFirst : List ω → ω
  | [] => 0
  | first :: later => later.foldl (· + ·) first

/-- The product of a list, from left to right. -/
def product (numbers : List ω) : ω :=
  numbers.foldl (· * ·) 1

/-- The number lies in the unit interval. An undefined number does not. -/
def isFraction (number : ω) : Bool :=
  0 ≤ number && number ≤ 1

end Arithmetic

instance : Arithmetic Float where
  decidableLT := inferInstance
  decidableLE := inferInstance
  ofNat := Float.ofNat
  log := Float.log
  pow := Float.pow
  round := Number.roundFloat
  isFinite := Float.isFinite
  read? := Number.readFloat?
  write := Number.writeFloat

end Retrieval
