import Mathlib.Analysis.SpecialFunctions.Pow.Real
import Retrieval.Number.Arithmetic

/-!
# Exact arithmetic

Scores are studied without rounding where every number has a real value and the operations are those of
the values. Of powers it is only required that they keep the probabilities other than zero where the
exponent lies in the unit interval. The real numbers themselves are such an arithmetic.
-/

namespace Retrieval

/-- Every number has a real value; the operations and comparisons are those of the values. -/
class ExactArithmetic (ω : Type) [Arithmetic ω] where
  /-- The value of a number. -/
  value : ω → ℝ
  /-- Counting is exact. -/
  value_ofNat : ∀ count, value (Arithmetic.ofNat count) = count
  /-- Addition is exact. -/
  value_add : ∀ left right, value (left + right) = value left + value right
  /-- Subtraction is exact. -/
  value_sub : ∀ left right, value (left - right) = value left - value right
  /-- Multiplication is exact. -/
  value_mul : ∀ left right, value (left * right) = value left * value right
  /-- Division by what is not zero is exact. -/
  value_div : ∀ left right, value right ≠ 0 → value (left / right) = value left / value right
  /-- Comparison is exact. -/
  lt_iff : ∀ left right : ω, left < right ↔ value left < value right
  /-- Comparison is exact. -/
  le_iff : ∀ left right : ω, left ≤ right ↔ value left ≤ value right
  /-- A power of a probability that is not zero, with an exponent in the unit interval, is such a
  probability again. -/
  value_pow_mem : ∀ base exponent, value base ∈ Set.Ioc 0 1 → value exponent ∈ Set.Icc 0 1 →
    value (Arithmetic.pow base exponent) ∈ Set.Ioc 0 1

namespace ExactArithmetic

variable {ω : Type} [Arithmetic ω] [ExactArithmetic ω]

@[simp]
theorem value_zero : value (0 : ω) = 0 := by
  exact (value_ofNat 0).trans Nat.cast_zero

@[simp]
theorem value_one : value (1 : ω) = 1 := by
  exact (value_ofNat 1).trans Nat.cast_one

theorem value_ofNat_nonneg (count : Nat) : 0 ≤ value (Arithmetic.ofNat count : ω) := by
  rw [value_ofNat]
  exact count.cast_nonneg

theorem value_ofNat_le {few many : Nat} (atMost : few ≤ many) :
    value (Arithmetic.ofNat few : ω) ≤ value (Arithmetic.ofNat many : ω) := by
  rw [value_ofNat, value_ofNat]
  exact Nat.cast_le.mpr atMost

theorem value_half : value (1 / Arithmetic.ofNat 2 : ω) = 1 / 2 := by
  have two : value (Arithmetic.ofNat 2 : ω) = 2 := (value_ofNat 2).trans Nat.cast_ofNat
  rw [value_div _ _ (two ▸ two_ne_zero), value_one, two]

theorem value_foldl_add (first : ω) (numbers : List ω) :
    value (numbers.foldl (· + ·) first) = value first + (numbers.map value).sum := by
  induction numbers generalizing first with
  | nil => simp
  | cons number later induction => simp [induction, value_add, add_assoc]

theorem value_sum (numbers : List ω) : value (Arithmetic.sum numbers) = (numbers.map value).sum := by
  rw [Arithmetic.sum, value_foldl_add, value_zero, zero_add]

theorem value_sumFromFirst (numbers : List ω) :
    value (Arithmetic.sumFromFirst numbers) = (numbers.map value).sum := by
  cases numbers with
  | nil => simp [Arithmetic.sumFromFirst]
  | cons first later => simp [Arithmetic.sumFromFirst, value_foldl_add]

theorem value_product (numbers : List ω) :
    value (Arithmetic.product numbers) = (numbers.map value).prod := by
  have multiplied : ∀ first : ω,
      value (numbers.foldl (· * ·) first) = value first * (numbers.map value).prod := by
    induction numbers with
    | nil => simp
    | cons number later induction =>
        intro first
        simp [induction, value_mul, mul_assoc]
  rw [Arithmetic.product, multiplied, value_one, one_mul]

theorem value_larger (left right : ω) :
    value (Arithmetic.larger left right) = max (value left) (value right) := by
  rw [Arithmetic.larger]
  split
  · next less => rw [max_eq_right ((lt_iff left right).mp less).le]
  · next notLess =>
      rw [if_pos ((le_iff left left).mpr le_rfl),
        max_eq_left (not_lt.mp fun less => notLess ((lt_iff left right).mpr less))]

theorem isFraction_iff (number : ω) :
    Arithmetic.isFraction number = true ↔ value number ∈ Set.Icc 0 1 := by
  rw [Arithmetic.isFraction, Bool.and_eq_true, decide_eq_true_eq, decide_eq_true_eq, le_iff, le_iff,
    value_zero, value_one, Set.mem_Icc]

end ExactArithmetic

/-! ## Real numbers -/

/-- A real number as a weight or score. -/
structure RealNumber where
  /-- The number. -/
  value : ℝ

namespace RealNumber

/-- The nearest integer, a half going away from zero. -/
noncomputable def round (number : ℝ) : ℝ :=
  if 0 ≤ number then ⌊number + 1 / 2⌋ else ⌈number - 1 / 2⌉

/-- The value of a decimal text. -/
noncomputable def read? (text : String) : Option ℝ :=
  let (negative, characters) := Number.takeSign text.toList
  (Number.readDecimal? characters).map fun decimal =>
    let magnitude : ℝ := decimal.digits * 10 ^ decimal.exponent
    if negative then -magnitude else magnitude

/-- The arithmetic of the real numbers. Decimal texts are read exactly, and there is no text for every
number. -/
noncomputable instance : Arithmetic RealNumber where
  add left right := ⟨left.value + right.value⟩
  sub left right := ⟨left.value - right.value⟩
  mul left right := ⟨left.value * right.value⟩
  div left right := ⟨left.value / right.value⟩
  lt left right := left.value < right.value
  le left right := left.value ≤ right.value
  decidableLT _ _ := Classical.propDecidable _
  decidableLE _ _ := Classical.propDecidable _
  ofNat count := ⟨count⟩
  log number := ⟨Real.log number.value⟩
  pow base exponent := ⟨base.value ^ exponent.value⟩
  round number := ⟨round number.value⟩
  isFinite _ := true
  read? text := (read? text).map mk
  write _ := ""

noncomputable instance : ExactArithmetic RealNumber where
  value := value
  value_ofNat _ := rfl
  value_add _ _ := rfl
  value_sub _ _ := rfl
  value_mul _ _ := rfl
  value_div _ _ _ := rfl
  lt_iff _ _ := Iff.rfl
  le_iff _ _ := Iff.rfl
  value_pow_mem _ exponent probability fraction :=
    ⟨Real.rpow_pos_of_pos probability.1 exponent.value,
      Real.rpow_le_one probability.1.le probability.2 fraction.1⟩

@[simp]
theorem value_mk (number : ℝ) : ExactArithmetic.value (⟨number⟩ : RealNumber) = number := rfl

@[simp]
theorem value_pow (base exponent : RealNumber) :
    ExactArithmetic.value (Arithmetic.pow base exponent) =
      ExactArithmetic.value base ^ ExactArithmetic.value exponent := rfl

@[simp]
theorem value_quotient (left right : RealNumber) :
    ExactArithmetic.value (left / right) =
      ExactArithmetic.value left / ExactArithmetic.value right := rfl

end RealNumber

end Retrieval
