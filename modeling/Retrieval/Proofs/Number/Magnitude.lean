import Mathlib
import Retrieval.Feedback

/-!
# Double-precision numbers that stay finite

A double-precision number is finite as long as its last bit does not count too much, and each
operation moves that bit by a known number of places; so a bound on the last bit is carried through a
formula without regard to what its roundings do. With it the complement of a number of the unit
interval, rounded to four places, is shown to be finite and not negative.
-/

namespace Retrieval

/-- Double-precision numbers, with some function for their logarithm. -/
def FloatWith (_ : Float → Float) : Type := Float

instance (log : Float → Float) : DecidableEq (FloatWith log) :=
  inferInstanceAs (DecidableEq Float)

instance (log : Float → Float) : Arithmetic (FloatWith log) :=
  { (inferInstance : Arithmetic Float) with log }

/-- With the logarithm of the library these are the numbers that a run computes with. -/
theorem arithmetic_floatWith_log :
    (inferInstance : Arithmetic (FloatWith Float.log)) = (inferInstance : Arithmetic Float) :=
  rfl

namespace Number

open Float.Model Float.Model.UnpackedFloat

/-! ## Rounding -/

/-- The value is not negative, and its last bit counts at most `2 ^ limit`. -/
inductive IsModest (limit : Int) : UnpackedFloat → Prop
  /-- Zero has no last bit. -/
  | zero : IsModest limit (.zero .positive)
  /-- A positive value. -/
  | finite {mantissa : Nat} {exponent : Int} {positive : 0 < mantissa} (low : exponent ≤ limit) :
      IsModest limit (.finite .positive mantissa exponent positive)

theorem mantissa_shiftRight (extended : ExtendedMantissa) (places : Nat) :
    (extended >>> places).mantissa = extended.mantissa / 2 ^ places := by
  induction places with
  | zero => simp [HShiftRight.hShiftRight, Nat.repeat]
  | succ places induction =>
      change (extended >>> places).mantissa / 2 = _
      rw [induction, Nat.div_div_eq_div_mul, Nat.pow_succ]

theorem mantissa_ofMantissaAndAccuracy (mantissa : Nat) (accuracy : Accuracy) :
    (ExtendedMantissa.ofMantissaAndAccuracy mantissa accuracy).mantissa = mantissa := by
  rcases accuracy with _ | _ | _ | _ <;> rfl

theorem roundedMantissa_le (extended : ExtendedMantissa) :
    extended.roundedMantissa ≤ extended.mantissa + 1 := by
  rcases extended with ⟨mantissa, _ | _, _ | _⟩ <;>
    simp only [ExtendedMantissa.roundedMantissa, ExtendedMantissa.accuracy,
      Accuracy.roundToNearestEven] <;> omega

theorem snd_shiftToTargetExponent_le {limit exponent : Int} {mantissa : Nat} (accuracy : Accuracy)
    (enough : -1074 ≤ limit) (low : exponent ≤ limit)
    (small : totalExponent mantissa exponent ≤ limit + 53) :
    (shiftToTargetExponent .binary64 mantissa exponent accuracy).2 ≤ limit := by
  simp only [shiftToTargetExponent, shiftToExponent, Format.targetExponent, Format.mantissaBits,
    Format.minExponent]
  omega

theorem fst_shiftToTargetExponent_lt (mantissa : Nat) (exponent : Int) (accuracy : Accuracy) :
    (shiftToTargetExponent .binary64 mantissa exponent accuracy).1.mantissa < 2 ^ 53 := by
  simp only [shiftToTargetExponent, shiftToExponent, mantissa_shiftRight,
    mantissa_ofMantissaAndAccuracy]
  rw [Nat.div_lt_iff_lt_mul (Nat.two_pow_pos _), ← Nat.pow_add]
  refine Nat.lt_of_lt_of_le Nat.lt_log2_self (Nat.pow_le_pow_right (by decide) ?_)
  simp only [Format.targetExponent, totalExponent, Format.mantissaBits, Format.minExponent]
  omega

/-- Rounding up may need one more bit, so the last bit moves by one place at most. -/
theorem isModest_roundWithAccuracy {limit exponent : Int} {mantissa : Nat} (accuracy : Accuracy)
    (enough : -1073 ≤ limit) (low : exponent < limit)
    (small : totalExponent mantissa exponent ≤ limit + 52) :
    IsModest limit (roundWithAccuracy .binary64 .positive mantissa exponent accuracy) := by
  have low₁ : (shiftToTargetExponent .binary64 mantissa exponent accuracy).2 ≤ limit - 1 :=
    snd_shiftToTargetExponent_le accuracy (by omega) (by omega) (by omega)
  have less := fst_shiftToTargetExponent_lt mantissa exponent accuracy
  rw [roundWithAccuracy]
  generalize shiftToTargetExponent .binary64 mantissa exponent accuracy = shifted at *
  obtain ⟨extended, exponent⟩ := shifted
  have rounded := roundedMantissa_le extended
  have digits : extended.roundedMantissa.log2 ≤ 53 := by
    by_cases zero : extended.roundedMantissa = 0
    · simp [zero]
    · exact Nat.le_of_lt_succ ((Nat.log2_lt zero).mpr (by dsimp only at *; omega))
  dsimp only at *
  split
  · exact .zero
  · have small : totalExponent extended.roundedMantissa exponent ≤ limit + 53 := by
      rw [totalExponent]
      omega
    exact .finite (snd_shiftToTargetExponent_le _ (by omega) (by omega) small)

theorem log2_le_of_le_shiftLeft {shifted mantissa places : Nat}
    (below : shifted ≤ mantissa <<< places) : shifted.log2 ≤ mantissa.log2 + places := by
  by_cases zero : shifted = 0
  · simp [zero]
  · rw [← Nat.lt_succ_iff, Nat.log2_lt zero]
    calc shifted ≤ mantissa * 2 ^ places := by rwa [← Nat.shiftLeft_eq]
      _ < 2 ^ (mantissa.log2 + 1) * 2 ^ places :=
          Nat.mul_lt_mul_of_pos_right Nat.lt_log2_self (Nat.two_pow_pos places)
      _ = 2 ^ (mantissa.log2 + places).succ := by
          rw [← Nat.pow_add, Nat.add_right_comm]

theorem isModest_round {limit exponent : Int} {mantissa : Nat}
    (enough : -1073 ≤ limit) (low : exponent < limit)
    (small : totalExponent mantissa exponent ≤ limit + 52) :
    IsModest limit (UnpackedFloat.round .binary64 .positive mantissa exponent) := by
  rw [UnpackedFloat.round]
  refine isModest_roundWithAccuracy _ enough ?_ ?_
  · omega
  · have longer := log2_le_of_le_shiftLeft (Nat.le_refl (mantissa <<<
      (exponent - Format.targetExponent .binary64 (totalExponent mantissa exponent)).toNat))
    simp only [totalExponent] at *
    omega

theorem isModest_normalize {limit exponent mantissa : Int} (enough : -1073 ≤ limit)
    (nonneg : 0 ≤ mantissa) (low : exponent < limit)
    (small : totalExponent mantissa.toNat exponent ≤ limit + 52) :
    IsModest limit (UnpackedFloat.normalize .binary64 mantissa exponent .positive) := by
  rw [UnpackedFloat.normalize]
  split
  · next less => exact absurd (Int.compare_eq_lt.mp less) (by omega)
  · exact .zero
  · exact isModest_round enough low small

/-! ## Bits -/

theorem isModest_unpack_packComponents {limit : Int} {exponent : BitVec 11} (mantissa : BitVec 52)
    (enough : -1074 ≤ limit) (finite : exponent ≠ -1#11)
    (low : (exponent.toNat : Int) - 1075 ≤ limit) :
    IsModest limit
      (UnpackedFloat.unpack .binary64 (packComponents .binary64 .positive exponent mantissa)) := by
  have bias : (Format.binary64.exponentBias : Int) = 1023 := rfl
  rw [UnpackedFloat.unpack]
  simp only [unpackExponent_packComponents, unpackMantissa_packComponents,
    unpackSign_packComponents, if_neg finite, bias]
  split
  · next zero =>
      split
      · exact .zero
      · exact .finite (by simp only [zero]; simp; omega)
  · exact .finite (by omega)

/-- A value whose last bit counts at most `2 ^ 971` does not become infinite in 64 bits. -/
theorem isModest_unpack_pack {limit : Int} {value : UnpackedFloat} (enough : -1074 ≤ limit)
    (noOverflow : limit ≤ 971) (modest : IsModest limit value) :
    IsModest limit (Float.Model.pack value).unpack := by
  rw [Float.Model.unpack, Float.Model.pack]
  cases modest with
  | zero => exact isModest_unpack_packComponents _ enough (by decide) (by simp; omega)
  | @finite mantissa exponent positive low =>
      have bias : (Format.binary64.exponentBias : Int) = 1023 := rfl
      simp only [UnpackedFloat.pack, bias]
      split
      · next overflow => simp at overflow; omega
      · split
        · next noOverflow _ =>
          have biased : (BitVec.ofNat 11 (exponent + 1023 + (52 : Nat)).toNat).toNat =
              (exponent + 1023 + (52 : Nat)).toNat :=
            Nat.mod_eq_of_lt (by omega)
          refine isModest_unpack_packComponents _ enough ?_ ?_
          · intro all
            rw [all] at biased
            have all : (-1#11).toNat = 2047 := rfl
            omega
          · rw [biased]
            omega
        · exact isModest_unpack_packComponents _ enough (by decide) (by simp; omega)

theorem mantissa_unpack_lt {number : Float.Model} {sign : Sign} {mantissa : Nat} {exponent : Int}
    {positive : 0 < mantissa} (unpacked : number.unpack = .finite sign mantissa exponent positive) :
    mantissa < 2 ^ 53 := by
  rw [Float.Model.unpack, UnpackedFloat.unpack] at unpacked
  dsimp only at unpacked
  split at unpacked
  · split at unpacked <;> exact absurd unpacked (by simp)
  · split at unpacked
    · split at unpacked
      · exact absurd unpacked (by simp)
      · obtain ⟨-, rfl, -⟩ := UnpackedFloat.finite.inj unpacked
        exact Nat.lt_trans (BitVec.isLt _) (by decide)
    · obtain ⟨-, rfl, -⟩ := UnpackedFloat.finite.inj unpacked
      exact BitVec.isLt _

/-! ## Operations -/

/-- The number is not negative, and its last bit counts at most `2 ^ limit`. -/
def Modest (limit : Int) (number : Float) : Prop :=
  IsModest limit number.toModel.unpack

theorem Modest.weaken {limit larger : Int} {number : Float} (modest : Modest limit number)
    (large : limit ≤ larger) : Modest larger number := by
  rw [Modest] at modest ⊢
  generalize number.toModel.unpack = value at modest ⊢
  cases modest with
  | zero => exact .zero
  | finite low => exact .finite (Int.le_trans low large)

theorem Modest.isFinite {limit : Int} {number : Float} (modest : Modest limit number) :
    number.isFinite = true := by
  rw [Modest] at modest
  rw [Float.isFinite, Float.Model.isFinite]
  generalize number.toModel.unpack = value at modest ⊢
  cases modest <;> rfl

theorem Modest.nonneg {limit : Int} {number : Float} (modest : Modest limit number) :
    Float.ofNat 0 ≤ number := by
  have zero : (Float.ofNat 0).toModel.unpack = .zero .positive := rfl
  rw [Modest] at modest
  change Float.le _ _ = true
  rw [Float.le, decide_eq_true_iff]
  change UnpackedFloat.le _ _ = true
  rw [zero]
  generalize number.toModel.unpack = value at modest ⊢
  cases modest <;> rfl

theorem Modest.mul {left right : Float} {leftLimit rightLimit limit : Int}
    (modestLeft : Modest leftLimit left) (modestRight : Modest rightLimit right)
    (large : leftLimit + rightLimit + 54 ≤ limit) (enough : -1073 ≤ limit)
    (noOverflow : limit ≤ 971) : Modest limit (left * right) := by
  change IsModest _ (Float.Model.pack (UnpackedFloat.mul .binary64 left.toModel.unpack
    right.toModel.unpack)).unpack
  apply isModest_unpack_pack (by omega) (by omega)
  rw [Modest] at modestLeft modestRight
  generalize unpackedLeft : left.toModel.unpack = leftValue at modestLeft ⊢
  generalize unpackedRight : right.toModel.unpack = rightValue at modestRight ⊢
  cases modestLeft with
  | zero => cases modestRight <;> exact .zero
  | @finite leftMantissa _ positive leftLow =>
      cases modestRight with
      | zero => exact .zero
      | @finite rightMantissa _ rightPositive rightLow =>
          refine isModest_roundWithAccuracy _ enough (by omega) ?_
          have product : leftMantissa * rightMantissa < 2 ^ 53 * 2 ^ 53 :=
            Nat.mul_lt_mul_of_lt_of_lt (mantissa_unpack_lt unpackedLeft)
              (mantissa_unpack_lt unpackedRight)
          have digits : (leftMantissa * rightMantissa).log2 < 106 :=
            (Nat.log2_lt (Nat.ne_of_gt (Nat.mul_pos positive rightPositive))).mpr (by omega)
          rw [totalExponent]
          omega

theorem Modest.div {left right : Float} {leftLimit rightExponent limit : Int} {rightMantissa : Nat}
    {rightPositive : 0 < rightMantissa} (modestLeft : Modest leftLimit left)
    (unpackedRight : right.toModel.unpack =
      .finite .positive rightMantissa rightExponent rightPositive)
    (large : leftLimit - rightExponent < limit) (enough : -1073 ≤ limit)
    (noOverflow : limit ≤ 971) : Modest limit (left / right) := by
  change IsModest _ (Float.Model.pack (UnpackedFloat.div .binary64 left.toModel.unpack
    right.toModel.unpack)).unpack
  apply isModest_unpack_pack (by omega) (by omega)
  rw [Modest] at modestLeft
  rw [unpackedRight]
  generalize unpackedLeft : left.toModel.unpack = leftValue at modestLeft ⊢
  cases modestLeft with
  | zero => exact .zero
  | @finite leftMantissa leftExponent positive leftLow =>
      have digits : leftMantissa.log2 < 53 :=
        (Nat.log2_lt (Nat.ne_of_gt positive)).mpr (mantissa_unpack_lt unpackedLeft)
      refine isModest_roundWithAccuracy _ enough (by omega) ?_
      have shorter := log2_le_of_le_shiftLeft (Nat.div_le_self (leftMantissa <<<
        (leftExponent - rightExponent - min (leftExponent - rightExponent)
          (Format.targetExponent .binary64 (totalExponent leftMantissa leftExponent
            - totalExponent rightMantissa rightExponent))).toNat) rightMantissa)
      rw [totalExponent]
      omega

theorem ofNat_eq {number : Nat} (small : number < 2 ^ 53) :
    Float.ofNat number = number.toUInt64.toFloat * Float.ofBits 0x3FF0000000000000 := by
  rw [Float.ofNat]
  change Float.ofScientific number false 0 = _
  rw [Float.ofScientific, dif_pos ⟨small, by decide⟩]
  rfl

theorem modest_ofNat {number : Nat} (small : number < 2 ^ 53) : Modest 3 (Float.ofNat number) := by
  have one : Modest (-52) (Float.ofBits 0x3FF0000000000000) := .finite (by decide)
  have whole : Modest 1 number.toUInt64.toFloat := by
    have stays : number.toUInt64.toNat = number := Nat.mod_eq_of_lt (by omega)
    change IsModest _ (Float.Model.pack
      (UnpackedFloat.normalize .binary64 number.toUInt64.toNat 0 .positive)).unpack
    rw [stays]
    refine isModest_unpack_pack (by omega) (by omega)
      (isModest_normalize (by omega) (by omega) (by omega) ?_)
    rw [totalExponent, Int.toNat_natCast]
    by_cases zero : number = 0
    · simp [zero]
    · have digits := (Nat.log2_lt zero).mpr small
      omega
  have product : Modest 3 (number.toUInt64.toFloat * Float.ofBits 0x3FF0000000000000) :=
    whole.mul one (by omega) (by omega) (by omega)
  rwa [ofNat_eq small]

theorem toNat_toBits_lt {limit : Int} {number : Float} (modest : Modest limit number) :
    number.toBits.toNat < Binary64.signUnit := by
  rw [Modest, Float.Model.unpack, UnpackedFloat.unpack] at modest
  dsimp only at modest
  have unsigned : Sign.ofBitVec (@unpackSign .binary64 number.toModel.toBits.toBitVec) =
      .positive := by
    split at modest
    · split at modest <;> cases modest
    · split at modest
      · split at modest
        · generalize Sign.ofBitVec _ = sign at modest ⊢
          cases modest
          rfl
        · generalize Sign.ofBitVec _ = sign at modest ⊢
          cases modest
          rfl
      · generalize Sign.ofBitVec _ = sign at modest ⊢
        cases modest
        rfl
  rw [Sign.ofBitVec] at unsigned
  split at unsigned
  · next zero =>
      have highest : number.toModel.toBits.toBitVec.toNat / 2 ^ 63 % 2 = 0 := by
        have bit := congrArg BitVec.toNat zero
        rwa [unpackSign, BitVec.toNat_cast, BitVec.extractLsb_toNat, Nat.shiftRight_eq_div_pow] at bit
      have bounded := number.toModel.toBits.toBitVec.isLt
      change number.toModel.toBits.toBitVec.toNat < 2 ^ 63
      omega
  · cases unsigned

theorem roundQuotient_lt {significand places : Nat} (small : significand < 2 ^ 53) :
    roundQuotient .up significand (2 ^ (places + 1)) < 2 ^ 53 := by
  have half : significand / 2 ^ (places + 1) ≤ significand / 2 :=
    Nat.div_le_div_left (by rw [Nat.pow_succ]; have := Nat.two_pow_pos places; omega) (by decide)
  rw [roundQuotient]
  split
  · omega
  · split <;> omega

theorem significand_ofBits_lt {bits : Nat} {value : Binary}
    (read : Binary64.ofBits bits = .finite value) : value.significand < 2 ^ 53 := by
  have fraction : bits % Binary64.exponentUnit < Binary64.exponentUnit := Nat.mod_lt _ (by decide)
  have unit : Binary64.exponentUnit = 2 ^ 52 := by decide
  rw [Binary64.ofBits] at read
  split at read
  · split at read <;> cases read
  · split at read <;> (cases read; dsimp only; omega)

theorem negative_ofBits {bits : Nat} {value : Binary}
    (read : Binary64.ofBits bits = .finite value) :
    value.negative = decide (Binary64.signUnit ≤ bits) := by
  rw [Binary64.ofBits] at read
  split at read
  · split at read <;> cases read
  · split at read <;> (cases read; rfl)

theorem Modest.roundFloat {limit : Int} {number : Float} (modest : Modest limit number)
    (large : 3 ≤ limit) : Modest limit (roundFloat number) := by
  have unsigned : ¬ Binary64.signUnit ≤ number.toBits.toNat :=
    Nat.not_le.mpr (toNat_toBits_lt modest)
  rw [Number.roundFloat]
  split
  · next value read =>
      rw [negative_ofBits read, decide_eq_false unsigned]
      split
      · exact modest
      · next fractional =>
          obtain ⟨places, behind⟩ : ∃ places : Nat, (-value.exponent).toNat = places + 1 :=
            ⟨(-value.exponent).toNat - 1, by omega⟩
          have whole : value.exponent.toNat = 0 := by omega
          have small : roundQuotient .up value.numerator value.denominator < 2 ^ 53 := by
            rw [Binary.numerator, Binary.denominator, whole, behind]
            exact roundQuotient_lt (by simpa using significand_ofBits_lt read)
          exact (modest_ofNat small).weaken large
  · exact modest

theorem modest_roundToFourPlaces {limit : Int} {number : Float} (modest : Modest limit number)
    (low : -12 ≤ limit) (high : limit ≤ 900) :
    Modest (limit + 60) (roundToFourPlaces number) := by
  have tenThousand : Modest (-39) (Float.ofNat 10000) := .finite (by decide)
  have unpacked : (Float.ofNat 10000).toModel.unpack =
      .finite .positive (10000 * 2 ^ 39) (-39) (by decide) := rfl
  have product : Modest (limit + 15) (number * Float.ofNat 10000) :=
    modest.mul tenThousand (by omega) (by omega) (by omega)
  exact (product.roundFloat (by omega)).div unpacked (by omega) (by omega) (by omega)

/-! ## Complements -/

theorem le_iff {left right : Float} :
    left ≤ right ↔ UnpackedFloat.le left.toModel.unpack right.toModel.unpack = true := by
  change Float.le _ _ = true ↔ _
  rw [Float.le, decide_eq_true_iff]
  rfl

theorem lt_iff {left right : Float} :
    left < right ↔ UnpackedFloat.lt left.toModel.unpack right.toModel.unpack = true := by
  change Float.lt _ _ = true ↔ _
  rw [Float.lt, decide_eq_true_iff]
  rfl

theorem unpack_one : (1 : Float).toModel.unpack = .finite .positive (2 ^ 52) (-52) (by decide) := rfl

/-- The values from zero to one. -/
inductive IsFraction : UnpackedFloat → Prop
  /-- Zero with either sign. -/
  | zero (sign : Sign) : IsFraction (.zero sign)
  /-- A positive value of at most one. -/
  | finite {mantissa : Nat} {exponent : Int} {positive : 0 < mantissa} (low : exponent ≤ -52)
      (small : exponent = -52 → mantissa ≤ 2 ^ 52) :
      IsFraction (.finite .positive mantissa exponent positive)

theorem isFraction_unpack {weight : Float} (fraction : Arithmetic.isFraction weight = true) :
    IsFraction weight.toModel.unpack := by
  obtain ⟨nonneg, small⟩ := Bool.and_eq_true_iff.mp fraction
  have nonneg := le_iff.mp (of_decide_eq_true nonneg)
  have small := le_iff.mp (of_decide_eq_true small)
  change UnpackedFloat.le (.zero .positive) _ = true at nonneg
  change UnpackedFloat.le _ (.finite .positive (2 ^ 52) (-52) (by decide)) = true at small
  generalize weight.toModel.unpack = value at nonneg small ⊢
  cases value with
  | infinity sign => cases sign <;> contradiction
  | notANumber => contradiction
  | zero sign => exact .zero sign
  | finite sign mantissa exponent positive =>
      cases sign with
      | negative => contradiction
      | positive =>
          have order : (compare exponent (-52)).isLE = true ∧ (compare exponent (-52) = .lt ∨
              (compare mantissa (2 ^ 52)).isLE = true) := by
            simpa only [UnpackedFloat.le, UnpackedFloat.compare, Option.any_some,
              Ordering.isLE_then_iff_and] using small
          obtain ⟨low, below⟩ := order
          refine .finite (Int.isLE_compare.mp low) fun same => ?_
          subst same
          exact Nat.isLE_compare.mp (below.resolve_left (by decide))

theorem isFinite_of_isFraction {weight : Float} (fraction : Arithmetic.isFraction weight = true) :
    weight.isFinite = true := by
  have fraction := isFraction_unpack fraction
  rw [Float.isFinite, Float.Model.isFinite]
  generalize weight.toModel.unpack = value at fraction ⊢
  cases fraction <;> rfl

theorem finite_nonneg_of_isFraction {weight : Float}
    (fraction : Arithmetic.isFraction weight = true) : weight.isFinite = true ∧ 0 ≤ weight :=
  ⟨isFinite_of_isFraction fraction, of_decide_eq_true (Bool.and_eq_true_iff.mp fraction).1⟩

theorem modest_one_sub {weight : Float} (fraction : Arithmetic.isFraction weight = true) :
    Modest 0 (1 - weight) := by
  change IsModest _ (Float.Model.pack (UnpackedFloat.sub .binary64 (1 : Float).toModel.unpack
    weight.toModel.unpack)).unpack
  rw [unpack_one]
  apply isModest_unpack_pack (by omega) (by omega)
  have fraction := isFraction_unpack fraction
  generalize unpacked : weight.toModel.unpack = value at fraction ⊢
  cases fraction with
  | zero sign => exact .finite (by omega)
  | @finite mantissa exponent positive low small =>
      have bounded := mantissa_unpack_lt unpacked
      -- One is written with the last bit of the other number before the two are subtracted.
      obtain ⟨places, rfl⟩ : ∃ places : Nat, exponent = -52 - places :=
        ⟨(-52 - exponent).toNat, by omega⟩
      have aligned : min (-52) (-52 - (places : Int)) = -52 - places := by omega
      have shift : (-52 - (-52 - (places : Int))).toNat = places := by omega
      have stays : (-52 - (places : Int) - (-52 - places)).toNat = 0 := by omega
      have below : mantissa ≤ 2 ^ 52 <<< places := by
        rw [Nat.shiftLeft_eq]
        cases places with
        | zero => simpa using small
        | succ places =>
            have growing := Nat.two_pow_pos places
            rw [Nat.pow_succ]
            omega
      have digits := log2_le_of_le_shiftLeft (Nat.sub_le (2 ^ 52 <<< places) mantissa)
      rw [Nat.log2_two_pow] at digits
      simp only [UnpackedFloat.sub, decreaseExponent, aligned, shift, stays, Nat.shiftLeft_zero,
        Sign.apply]
      refine isModest_normalize (by omega) (by omega) (by omega) ?_
      rw [totalExponent, ← Int.ofNat_sub below, Int.toNat_natCast]
      omega

/-- What is left of a unit, rounded to four places, is a number again, and not negative. -/
theorem roundToFourPlaces_one_sub {weight : Float} (fraction : Arithmetic.isFraction weight = true) :
    (roundToFourPlaces (1 - weight)).isFinite = true ∧ 0 ≤ roundToFourPlaces (1 - weight) :=
  have modest := modest_roundToFourPlaces (modest_one_sub fraction) (by omega) (by omega)
  ⟨modest.isFinite, modest.nonneg⟩

end Number

end Retrieval
