import Retrieval.Proofs.Number.Magnitude

/-!
# Sums and quotients of double-precision numbers

A quotient stays finite where its second part does not count too little, so for quotients of sums the
last bit is bounded from below as well: that of a sum counts at least as much as those of its parts.
From above a sum of many numbers is bounded by what a single number cannot raise any more. With both the
smoothed share of a term in a document is shown to stay small.
-/

namespace Retrieval.Number

open Float.Model Float.Model.UnpackedFloat

/-! ## Canonical values -/

/-- The value stands in 53 binary digits, the first of them set unless the last one counts as little
as it can. -/
structure IsCanonical (mantissa : Nat) (exponent : Int) : Prop where
  /-- It is positive. -/
  positive : 0 < mantissa
  /-- It has 53 binary digits. -/
  short : mantissa < 2 ^ 53
  /-- Its last digit counts no less than it can. -/
  least : -1074 ≤ exponent
  /-- Its first digit is set if the last one could count less. -/
  full : exponent = -1074 ∨ 2 ^ 52 ≤ mantissa

theorem isCanonical_unpack {number : Float.Model} {sign : Sign} {mantissa : Nat} {exponent : Int}
    {positive : 0 < mantissa} (unpacked : number.unpack = .finite sign mantissa exponent positive) :
    IsCanonical mantissa exponent := by
  have short := mantissa_unpack_lt unpacked
  suffices shape : -1074 ≤ exponent ∧ (exponent = -1074 ∨ 2 ^ 52 ≤ mantissa) from
    ⟨positive, short, shape.1, shape.2⟩
  have bias : (Format.binary64.exponentBias : Int) = 1023 := rfl
  rw [Float.Model.unpack, UnpackedFloat.unpack] at unpacked
  dsimp only at unpacked
  split at unpacked
  · split at unpacked <;> exact absurd unpacked (by simp)
  · split at unpacked
    · next zero =>
        split at unpacked
        · exact absurd unpacked (by simp)
        · obtain ⟨-, -, rfl⟩ := UnpackedFloat.finite.inj unpacked
          rw [zero, bias]
          simp
    · next nonzero =>
        obtain ⟨-, rfl, rfl⟩ := UnpackedFloat.finite.inj unpacked
        have high : (@unpackExponent .binary64 number.toBits.toBitVec).toNat ≠ 0 := fun none =>
          nonzero (BitVec.eq_of_toNat_eq (none.trans rfl))
        refine ⟨by rw [bias]; omega, .inr ?_⟩
        rw [BitVec.toNat_append]
        exact Nat.left_le_or

/-! ## Rounding -/

theorem targetExponent_eq (mantissa : Nat) (exponent : Int) :
    Format.binary64.targetExponent (totalExponent mantissa exponent) =
      max (mantissa.log2 + exponent - 52) (-1074) := by
  simp only [Format.targetExponent, totalExponent, Format.mantissaBits, Format.minExponent]
  omega

/-- Where a value is shifted, its digits are full. -/
theorem isCanonical_shift {mantissa : Nat} {exponent : Int} (accuracy : Accuracy)
    (positive : 0 < mantissa)
    (aligned : exponent ≤ max (mantissa.log2 + exponent - 52) (-1074))
    (reached : -1074 ≤ exponent ∨ -1022 ≤ mantissa.log2 + exponent) :
    IsCanonical (shiftToTargetExponent .binary64 mantissa exponent accuracy).1.mantissa
      (shiftToTargetExponent .binary64 mantissa exponent accuracy).2 ∧
    (shiftToTargetExponent .binary64 mantissa exponent accuracy).2 =
      max (mantissa.log2 + exponent - 52) (-1074) := by
  have short := fst_shiftToTargetExponent_lt mantissa exponent accuracy
  simp only [shiftToTargetExponent, shiftToExponent, mantissa_shiftRight, targetExponent_eq,
    mantissa_ofMantissaAndAccuracy] at short ⊢
  generalize isPlaces : (max (mantissa.log2 + exponent - 52) (-1074) - exponent).toNat = places at *
  have whole : 2 ^ mantissa.log2 ≤ mantissa := Nat.log2_self_le positive.ne'
  have full : exponent + places = -1074 ∨ 2 ^ 52 ≤ mantissa / 2 ^ places := by
    rcases Nat.lt_or_ge mantissa.log2 (52 + places) with low | high
    · exact .inl (by omega)
    · refine .inr ((Nat.le_div_iff_mul_le (Nat.two_pow_pos places)).mpr ?_)
      rw [← Nat.pow_add]
      exact (Nat.pow_le_pow_right (by decide) high).trans whole
  refine ⟨⟨?_, short, by omega, full⟩, by omega⟩
  rcases Nat.lt_or_ge 0 places with some | none
  · refine Nat.div_pos (le_trans ?_ whole) (Nat.two_pow_pos places)
    exact Nat.pow_le_pow_right (by decide) (by omega)
  · obtain rfl : places = 0 := by omega
    simpa using positive

theorem le_roundedMantissa (extended : ExtendedMantissa) :
    extended.mantissa ≤ extended.roundedMantissa := by
  rcases extended with ⟨mantissa, _ | _, _ | _⟩ <;>
    simp only [ExtendedMantissa.roundedMantissa, ExtendedMantissa.accuracy,
      Accuracy.roundToNearestEven] <;> omega

/-- The last digit of a rounded value counts no less than that of the digits that are kept. -/
theorem exists_roundWithAccuracy {mantissa : Nat} {exponent : Int} (accuracy : Accuracy)
    (positive : 0 < mantissa)
    (aligned : exponent ≤ max (mantissa.log2 + exponent - 52) (-1074))
    (reached : -1074 ≤ exponent ∨ -1022 ≤ mantissa.log2 + exponent) :
    ∃ rounded raised isPositive,
      roundWithAccuracy .binary64 .positive mantissa exponent accuracy =
        .finite .positive rounded raised isPositive ∧ IsCanonical rounded raised ∧
          max (mantissa.log2 + exponent - 52) (-1074) ≤ raised ∧
            raised ≤ max (mantissa.log2 + exponent - 52) (-1074) + 1 := by
  obtain ⟨canonical, isTarget⟩ := isCanonical_shift accuracy positive aligned reached
  rw [roundWithAccuracy]
  generalize shiftToTargetExponent .binary64 mantissa exponent accuracy = shifted at *
  obtain ⟨extended, target⟩ := shifted
  dsimp only at canonical isTarget ⊢
  have above := le_roundedMantissa extended
  have below := roundedMantissa_le extended
  have positive : 0 < extended.roundedMantissa := canonical.positive.trans_le above
  have digits : 2 ^ 52 ≤ extended.mantissa → 52 ≤ extended.roundedMantissa.log2 := fun full =>
    (Nat.le_log2 positive.ne').mpr (full.trans above)
  have least := canonical.least
  have full := canonical.full.imp_right digits
  have short : extended.roundedMantissa.log2 < 54 :=
    (Nat.log2_lt positive.ne').mpr (by have := canonical.short; omega)
  have aligned : target ≤ max (extended.roundedMantissa.log2 + target - 52) (-1074) := by omega
  obtain ⟨again, raised⟩ := isCanonical_shift .exact positive aligned (.inl least)
  rw [dif_neg again.positive.ne']
  exact ⟨_, _, _, rfl, again, by omega, by omega⟩

theorem log2_shiftLeft {mantissa : Nat} (positive : 0 < mantissa) (places : Nat) :
    (mantissa <<< places).log2 = mantissa.log2 + places := by
  have shifted : 0 < mantissa <<< places := by
    rw [Nat.shiftLeft_eq]
    exact Nat.mul_pos positive (Nat.two_pow_pos places)
  refine Nat.le_antisymm (log2_le_of_le_shiftLeft (Nat.le_refl _))
    ((Nat.le_log2 shifted.ne').mpr ?_)
  rw [Nat.shiftLeft_eq, Nat.pow_add]
  exact Nat.mul_le_mul_right _ (Nat.log2_self_le positive.ne')

theorem exists_normalize {mantissa exponent : Int} (positive : 0 < mantissa)
    (least : -1074 ≤ exponent) :
    ∃ rounded raised isPositive,
      UnpackedFloat.normalize .binary64 mantissa exponent .positive =
        .finite .positive rounded raised isPositive ∧ IsCanonical rounded raised ∧
          max (mantissa.toNat.log2 + exponent - 52) (-1074) ≤ raised ∧
            raised ≤ max (mantissa.toNat.log2 + exponent - 52) (-1074) + 1 := by
  have isSign : compare mantissa 0 = .gt := Int.compare_eq_gt.mpr positive
  have positive : 0 < mantissa.toNat := by omega
  simp only [UnpackedFloat.normalize, isSign, UnpackedFloat.round, decreaseExponent,
    targetExponent_eq]
  generalize isPlaces :
    (exponent - max (mantissa.toNat.log2 + exponent - 52) (-1074)).toNat = places
  have digits := log2_shiftLeft positive places
  have shifted : 0 < mantissa.toNat <<< places := by
    rw [Nat.shiftLeft_eq]
    exact Nat.mul_pos positive (Nat.two_pow_pos places)
  obtain ⟨rounded, raised, isPositive, rounds, canonical, high, low⟩ :=
    @exists_roundWithAccuracy _ (exponent - places) .exact shifted (by omega) (by omega)
  exact ⟨rounded, raised, isPositive, rounds, canonical, by omega, by omega⟩

/-! ## Lower bounds -/

/-- The value is positive, and its last bit counts at least `2 ^ floor`, or the value is infinite. -/
inductive IsHeavy (floor : Int) : UnpackedFloat → Prop
  /-- A finite value. -/
  | finite {mantissa : Nat} {exponent : Int} {positive : 0 < mantissa} (high : floor ≤ exponent) :
      IsHeavy floor (.finite .positive mantissa exponent positive)
  /-- The infinite value. -/
  | infinite : IsHeavy floor (.infinity .positive)

theorem isHeavy_infinity (floor : Int) :
    IsHeavy floor (Float.Model.pack (.infinity .positive)).unpack :=
  have kept : (Float.Model.pack (.infinity .positive)).unpack = .infinity .positive := rfl
  kept ▸ .infinite

theorem isHeavy_unpack_packComponents {floor : Int} {exponent : BitVec 11} {mantissa : BitVec 52}
    (finite : exponent ≠ -1#11) (some : exponent = 0#11 → mantissa ≠ 0#52)
    (high : floor ≤ max (exponent.toNat : Int) 1 - 1075) :
    IsHeavy floor
      (UnpackedFloat.unpack .binary64 (packComponents .binary64 .positive exponent mantissa)) := by
  have bias : (Format.binary64.exponentBias : Int) = 1023 := rfl
  rw [UnpackedFloat.unpack]
  simp only [unpackExponent_packComponents, unpackMantissa_packComponents,
    unpackSign_packComponents, if_neg finite, bias]
  split
  · next least =>
      rw [dif_neg (some least)]
      exact .finite (by simp only [least] at high ⊢; simp at high ⊢; omega)
  · next normal =>
      have positive : exponent.toNat ≠ 0 := fun none => normal (BitVec.eq_of_toNat_eq none)
      exact .finite (by omega)

theorem isHeavy_unpack_pack {floor : Int} {mantissa : Nat} {exponent : Int}
    (canonical : IsCanonical mantissa exponent) (positive : 0 < mantissa) (high : floor ≤ exponent) :
    IsHeavy floor (Float.Model.pack (.finite .positive mantissa exponent positive)).unpack := by
  have bias : (Format.binary64.exponentBias : Int) = 1023 := rfl
  obtain ⟨-, short, least, full⟩ := canonical
  rw [Float.Model.unpack, Float.Model.pack]
  simp only [UnpackedFloat.pack, bias]
  split
  · exact isHeavy_infinity floor
  · next noOverflow =>
      split
      · have biased : (BitVec.ofNat 11 (exponent + 1023 + (52 : Nat)).toNat).toNat =
            (exponent + 1023 + (52 : Nat)).toNat :=
          Nat.mod_eq_of_lt (by simp at noOverflow; omega)
        refine isHeavy_unpack_packComponents (fun all => ?_) (fun none => ?_) (by omega)
        · rw [all] at biased
          have all : (-1#11).toNat = 2047 := rfl
          simp at noOverflow
          omega
        · rw [none] at biased
          have none : (0#11).toNat = 0 := rfl
          omega
      · next subnormal =>
          have small : mantissa < 2 ^ 52 := by
            have digits : mantissa.log2 < 53 := (Nat.log2_lt positive.ne').mpr short
            refine (Nat.log2_lt positive.ne').mp ?_
            change ¬ mantissa.log2 + 1 = 53 at subnormal
            omega
          refine isHeavy_unpack_packComponents (by decide) (fun _ none => positive.ne' ?_)
            (by simp; omega)
          rw [← Nat.mod_eq_of_lt small]
          exact congrArg BitVec.toNat none

/-! ## Sums -/

theorem log2_add_bounds {left right : Nat} (leftPositive : 0 < left) (rightPositive : 0 < right) :
    max left.log2 right.log2 ≤ (left + right).log2 ∧
      (left + right).log2 ≤ max left.log2 right.log2 + 1 := by
  have positive : left + right ≠ 0 := by omega
  refine ⟨Nat.max_le.mpr ⟨?_, ?_⟩, Nat.le_of_lt_succ ((Nat.log2_lt positive).mpr ?_)⟩
  · exact (Nat.le_log2 positive).mpr ((Nat.log2_self_le leftPositive.ne').trans (by omega))
  · exact (Nat.le_log2 positive).mpr ((Nat.log2_self_le rightPositive.ne').trans (by omega))
  · have isLeft : left < 2 ^ (max left.log2 right.log2 + 1) :=
      (Nat.log2_lt leftPositive.ne').mp (by omega)
    have isRight : right < 2 ^ (max left.log2 right.log2 + 1) :=
      (Nat.log2_lt rightPositive.ne').mp (by omega)
    rw [Nat.succ_eq_add_one, Nat.pow_succ]
    omega

/-- The last bit of a sum counts no less than those of its parts, and not much more. -/
theorem exists_add {left right : Nat} {leftExponent rightExponent : Int} {leftPositive : 0 < left}
    {rightPositive : 0 < right} (isLeft : IsCanonical left leftExponent)
    (isRight : IsCanonical right rightExponent) :
    ∃ rounded raised isPositive,
      UnpackedFloat.add .binary64 (.finite .positive left leftExponent leftPositive)
        (.finite .positive right rightExponent rightPositive) =
          .finite .positive rounded raised isPositive ∧ IsCanonical rounded raised ∧
        max leftExponent rightExponent ≤ raised ∧ raised ≤ max leftExponent rightExponent + 2 := by
  obtain ⟨-, leftShort, leftLeast, leftFull⟩ := isLeft
  obtain ⟨-, rightShort, rightLeast, rightFull⟩ := isRight
  have leftFull := leftFull.imp_right (Nat.le_log2 leftPositive.ne').mpr
  have rightFull := rightFull.imp_right (Nat.le_log2 rightPositive.ne').mpr
  have leftShort := (Nat.log2_lt leftPositive.ne').mpr leftShort
  have rightShort := (Nat.log2_lt rightPositive.ne').mpr rightShort
  simp only [UnpackedFloat.add, decreaseExponent, Sign.apply]
  generalize isLeast : min leftExponent rightExponent = least
  generalize leftPlaces_eq : (leftExponent - least).toNat = leftPlaces
  generalize rightPlaces_eq : (rightExponent - least).toNat = rightPlaces
  have leftDigits := log2_shiftLeft leftPositive leftPlaces
  have rightDigits := log2_shiftLeft rightPositive rightPlaces
  have leftSome : 0 < left <<< leftPlaces := by
    rw [Nat.shiftLeft_eq]
    exact Nat.mul_pos leftPositive (Nat.two_pow_pos leftPlaces)
  have rightSome : 0 < right <<< rightPlaces := by
    rw [Nat.shiftLeft_eq]
    exact Nat.mul_pos rightPositive (Nat.two_pow_pos rightPlaces)
  have digits := log2_add_bounds leftSome rightSome
  obtain ⟨rounded, raised, isPositive, rounds, canonical, high, low⟩ :=
    @exists_normalize ((left <<< leftPlaces + right <<< rightPlaces : Nat) : Int) least (by omega)
      (by omega)
  rw [Int.toNat_natCast] at high low
  exact ⟨rounded, raised, isPositive, rounds, canonical, by omega, by omega⟩

theorem roundBit_shiftRight_succ (extended : ExtendedMantissa) (places : Nat) :
    (extended >>> (places + 1)).roundBit = (extended.mantissa / 2 ^ places % 2 != 0) := by
  rw [← mantissa_shiftRight]
  rfl

theorem roundedMantissa_of_roundBit {extended : ExtendedMantissa}
    (down : extended.roundBit = false) : extended.roundedMantissa = extended.mantissa := by
  obtain ⟨mantissa, roundBit, sticky⟩ := extended
  obtain rfl : roundBit = false := down
  cases sticky <;> rfl

/-- Digits behind the last one are cut where the first of them is not set. -/
theorem roundWithAccuracy_eq {mantissa whole places : Nat} {exponent : Int} (full : 2 ^ 52 ≤ mantissa)
    (short : mantissa < 2 ^ 53) (least : -1074 ≤ exponent)
    (kept : whole / 2 ^ (places + 1) = mantissa) (down : whole / 2 ^ places % 2 = 0)
    {positive : 0 < mantissa} :
    roundWithAccuracy .binary64 .positive whole (exponent - (places + 1 : Nat)) .exact =
      .finite .positive mantissa exponent positive := by
  have unit : 0 < 2 ^ (places + 1) := Nat.two_pow_pos _
  have lower : 2 ^ (52 + (places + 1)) ≤ whole := by
    rw [Nat.pow_add]
    exact (Nat.le_div_iff_mul_le unit).mp (full.trans_eq kept.symm)
  have upper : whole < 2 ^ (52 + (places + 1) + 1) := by
    rw [Nat.add_right_comm, Nat.pow_add]
    exact (Nat.div_lt_iff_lt_mul unit).mp (kept.trans_lt short)
  have some : whole ≠ 0 := ((Nat.two_pow_pos _).trans_le lower).ne'
  have wholeDigits : whole.log2 = 52 + (places + 1) := (Nat.log2_eq_iff some).mpr ⟨lower, upper⟩
  have digits : mantissa.log2 = 52 := (Nat.log2_eq_iff positive.ne').mpr ⟨full, short⟩
  have cut : shiftToTargetExponent .binary64 whole (exponent - (places + 1 : Nat)) .exact =
      ((⟨whole, false, false⟩ : ExtendedMantissa) >>> (places + 1), exponent) := by
    have all : (max (↑(52 + (places + 1)) + (exponent - ↑(places + 1)) - 52) (-1074) -
        (exponent - ↑(places + 1))).toNat = places + 1 := by omega
    simp only [shiftToTargetExponent, shiftToExponent, targetExponent_eq, wholeDigits, all,
      ExtendedMantissa.ofMantissaAndAccuracy, Int.sub_add_cancel]
  have stays : shiftToTargetExponent .binary64 mantissa exponent .exact =
      (⟨mantissa, false, false⟩, exponent) := by
    have none : (max (((52 : Nat) : Int) + exponent - 52) (-1074) - exponent).toNat = 0 := by
      omega
    simp only [shiftToTargetExponent, shiftToExponent, targetExponent_eq, digits, none,
      ExtendedMantissa.ofMantissaAndAccuracy, Int.natCast_zero, Int.add_zero]
    rfl
  have rounds : ((⟨whole, false, false⟩ : ExtendedMantissa) >>> (places + 1)).roundedMantissa =
      mantissa := by
    rw [roundedMantissa_of_roundBit, mantissa_shiftRight, kept]
    rw [roundBit_shiftRight_succ, down]
    rfl
  rw [roundWithAccuracy, cut]
  dsimp only
  rw [rounds, stays, dif_neg positive.ne']

theorem round_eq_of_le {mantissa : Nat} {exponent : Int}
    (aligned : exponent ≤ max (mantissa.log2 + exponent - 52) (-1074)) :
    UnpackedFloat.round .binary64 .positive mantissa exponent =
      roundWithAccuracy .binary64 .positive mantissa exponent .exact := by
  have none : (exponent - max (mantissa.log2 + exponent - 52) (-1074)).toNat = 0 := by omega
  simp only [UnpackedFloat.round, decreaseExponent, targetExponent_eq, none, Nat.shiftLeft_zero,
    Int.natCast_zero, Int.sub_zero]

/-- A number is not changed by one that counts less than half of its last bit. -/
theorem add_eq_left {left right : Nat} {leftExponent rightExponent : Int} {leftPositive : 0 < left}
    {rightPositive : 0 < right} (isLeft : IsCanonical left leftExponent) (full : 2 ^ 52 ≤ left)
    (short : right < 2 ^ 53) (beyond : rightExponent ≤ leftExponent - 54) :
    UnpackedFloat.add .binary64 (.finite .positive left leftExponent leftPositive)
        (.finite .positive right rightExponent rightPositive) =
      .finite .positive left leftExponent leftPositive := by
  obtain ⟨places, isPlaces⟩ : ∃ places : Nat,
      rightExponent = leftExponent - (places + 53 + 1 : Nat) :=
    ⟨(leftExponent - 54 - rightExponent).toNat, by omega⟩
  have half : right < 2 ^ (places + 53) :=
    short.trans_le (Nat.pow_le_pow_right (by decide) (by omega))
  generalize places + 53 = places at half isPlaces
  have doubled : (left * 2 ^ (places + 1) + right) / 2 ^ places = 2 * left := by
    have split : left * 2 ^ (places + 1) = 2 ^ places * (2 * left) := by ring
    rw [split, Nat.mul_add_div (Nat.two_pow_pos places), Nat.div_eq_of_lt half, Nat.add_zero]
  have kept : (left * 2 ^ (places + 1) + right) / 2 ^ (places + 1) = left := by
    rw [Nat.pow_succ 2 places, ← Nat.div_div_eq_div_mul, ← Nat.pow_succ, doubled]
    omega
  have least : min leftExponent rightExponent = rightExponent := by omega
  have leftPlaces : (leftExponent - rightExponent).toNat = places + 1 := by omega
  have positive : 0 < left * 2 ^ (places + 1) + right := by omega
  have isSign : compare ((left * 2 ^ (places + 1) + right : Nat) : Int) 0 = .gt :=
    Int.compare_eq_gt.mpr (Int.natCast_pos.mpr positive)
  have digits : 52 ≤ (left * 2 ^ (places + 1) + right).log2 := by
    refine (Nat.le_log2 positive.ne').mpr (full.trans ?_)
    exact (Nat.le_mul_of_pos_right left (Nat.two_pow_pos _)).trans (Nat.le_add_right _ _)
  simp only [UnpackedFloat.add, decreaseExponent, Sign.apply, least, leftPlaces, Int.sub_self,
    Int.toNat_zero, Nat.shiftLeft_eq, Nat.pow_zero, Nat.mul_one, UnpackedFloat.normalize,
    ← Int.natCast_add, isSign, Int.toNat_natCast]
  rw [round_eq_of_le (by omega), isPlaces,
    roundWithAccuracy_eq full isLeft.short isLeft.least kept (by omega)]

/-! ## Operations -/

/-- The number is positive, and its last bit counts at least `2 ^ floor`. -/
def Heavy (floor : Int) (number : Float) : Prop :=
  IsHeavy floor number.toModel.unpack

/-- The value is a zero of either sign, or it is positive and its last bit counts at most
`2 ^ limit`. -/
inductive IsMild (limit : Int) : UnpackedFloat → Prop
  /-- A zero. -/
  | zero (sign : Sign) : IsMild limit (.zero sign)
  /-- A positive value. -/
  | finite {mantissa : Nat} {exponent : Int} {positive : 0 < mantissa} (low : exponent ≤ limit) :
      IsMild limit (.finite .positive mantissa exponent positive)

/-- The number is not negative, unless it is a negative zero, and its last bit counts at most
`2 ^ limit`. -/
def Mild (limit : Int) (number : Float) : Prop :=
  IsMild limit number.toModel.unpack

theorem Modest.mild {limit : Int} {number : Float} (modest : Modest limit number) :
    Mild limit number := by
  rw [Modest] at modest
  rw [Mild]
  generalize number.toModel.unpack = value at modest ⊢
  cases modest with
  | zero => exact .zero _
  | finite low => exact .finite low

theorem isMild_unpack_pack {limit : Int} {value : UnpackedFloat} (enough : -1074 ≤ limit)
    (noOverflow : limit ≤ 971) (mild : IsMild limit value) :
    IsMild limit (Float.Model.pack value).unpack := by
  cases mild with
  | zero sign => cases sign <;> exact .zero _
  | finite low =>
      exact @Modest.mild limit (Float.ofModel (Float.Model.pack _))
        (isModest_unpack_pack enough noOverflow (.finite low))

theorem mild_of_le {limit : Int} {number bound : Float} (notNegative : ¬ number < Float.ofNat 0)
    (le : number ≤ bound) (modest : Modest limit bound) : Mild limit number := by
  rw [lt_iff] at notNegative
  have le := le_iff.mp le
  change ¬ UnpackedFloat.lt _ (.zero .positive) = true at notNegative
  rw [Modest] at modest
  rw [Mild]
  generalize number.toModel.unpack = value at notNegative le ⊢
  generalize bound.toModel.unpack = boundValue at le modest
  cases value with
  | infinity sign => cases sign <;> cases modest <;> contradiction
  | notANumber => contradiction
  | zero sign => exact .zero sign
  | finite sign mantissa exponent positive =>
      cases sign with
      | negative => contradiction
      | positive =>
          cases modest with
          | zero => contradiction
          | @finite boundMantissa boundExponent _ low =>
              have order : (compare exponent boundExponent).isLE = true := by
                simp only [UnpackedFloat.le, UnpackedFloat.compare, Option.any_some,
                  Ordering.isLE_then_iff_and] at le
                exact le.1
              exact .finite ((Int.isLE_compare.mp order).trans low)

theorem not_lt_zero_of_le {number : Float} (nonneg : Float.ofNat 0 ≤ number) :
    ¬ number < Float.ofNat 0 := by
  rw [lt_iff]
  have nonneg := le_iff.mp nonneg
  change UnpackedFloat.le (.zero .positive) _ = true at nonneg
  change ¬ UnpackedFloat.lt _ (.zero .positive) = true
  generalize number.toModel.unpack = value at nonneg ⊢
  cases value with
  | notANumber => contradiction
  | zero => exact Bool.noConfusion
  | infinity sign | finite sign =>
      cases sign with
      | positive => exact Bool.noConfusion
      | negative => contradiction

theorem Mild.zero_or_modest {limit : Int} {number : Float} (mild : Mild limit number) :
    (∃ sign, number.toModel.unpack = .zero sign) ∨ Modest limit number := by
  rw [Mild] at mild
  rw [Modest]
  generalize number.toModel.unpack = value at mild ⊢
  cases mild with
  | zero sign => exact .inl ⟨sign, rfl⟩
  | finite low => exact .inr (.finite low)

theorem Mild.mul {left right : Float} {leftLimit rightLimit limit : Int}
    (mildLeft : Mild leftLimit left) (mildRight : Mild rightLimit right)
    (large : leftLimit + rightLimit + 54 ≤ limit) (enough : -1073 ≤ limit)
    (noOverflow : limit ≤ 971) : Mild limit (left * right) := by
  have zero : ∀ sign, UnpackedFloat.mul .binary64 left.toModel.unpack right.toModel.unpack =
      .zero sign → Mild limit (left * right) := fun sign product => by
    change IsMild _ (Float.Model.pack (UnpackedFloat.mul .binary64 left.toModel.unpack
      right.toModel.unpack)).unpack
    rw [product]
    exact isMild_unpack_pack (by omega) noOverflow (.zero sign)
  rcases mildLeft.zero_or_modest with ⟨sign, isZero⟩ | modestLeft
  · rw [isZero] at zero
    rw [Mild] at mildRight
    generalize right.toModel.unpack = value at mildRight zero
    cases mildRight <;> exact zero _ rfl
  · rcases mildRight.zero_or_modest with ⟨sign, isZero⟩ | modestRight
    · rw [isZero] at zero
      rw [Mild] at mildLeft
      generalize left.toModel.unpack = value at mildLeft zero
      cases mildLeft <;> exact zero _ rfl
    · exact (modestLeft.mul modestRight large enough noOverflow).mild

/-- A sum is bounded where the sums of positive numbers are. -/
theorem Modest.add_of_finite {left right : Float} {leftLimit rightLimit limit : Int}
    (modest : Modest leftLimit left) (mild : Mild rightLimit right)
    (leftLarge : leftLimit ≤ limit) (rightLarge : rightLimit ≤ limit)
    (enough : -1074 ≤ limit) (noOverflow : limit ≤ 971)
    (both : ∀ {left right : Nat} {leftExponent rightExponent : Int} {leftPositive : 0 < left}
      {rightPositive : 0 < right}, IsCanonical left leftExponent → IsCanonical right rightExponent →
        leftExponent ≤ leftLimit → rightExponent ≤ rightLimit →
          IsModest limit (UnpackedFloat.add .binary64
            (.finite .positive left leftExponent leftPositive)
            (.finite .positive right rightExponent rightPositive))) :
    Modest limit (left + right) := by
  change IsModest _ (Float.Model.pack (UnpackedFloat.add .binary64 left.toModel.unpack
    right.toModel.unpack)).unpack
  apply isModest_unpack_pack enough noOverflow
  rw [Modest] at modest
  rw [Mild] at mild
  generalize unpackedLeft : left.toModel.unpack = leftValue at modest ⊢
  generalize unpackedRight : right.toModel.unpack = rightValue at mild ⊢
  cases modest with
  | zero =>
      cases mild with
      | zero sign => cases sign <;> exact .zero
      | finite low => exact .finite (low.trans rightLarge)
  | finite leftLow =>
      cases mild with
      | zero sign => exact .finite (leftLow.trans leftLarge)
      | finite rightLow =>
          exact both (isCanonical_unpack unpackedLeft) (isCanonical_unpack unpackedRight) leftLow
            rightLow

theorem Modest.add {left right : Float} {leftLimit rightLimit limit : Int}
    (modest : Modest leftLimit left) (mild : Mild rightLimit right)
    (leftLarge : leftLimit + 2 ≤ limit) (rightLarge : rightLimit + 2 ≤ limit)
    (enough : -1074 ≤ limit) (noOverflow : limit ≤ 971) : Modest limit (left + right) := by
  refine modest.add_of_finite mild (by omega) (by omega) enough noOverflow ?_
  intro _ _ _ _ _ _ isLeft isRight leftLow rightLow
  obtain ⟨_, _, _, sum, -, -, low⟩ := exists_add isLeft isRight
  rw [sum]
  exact .finite (by omega)

/-- Numbers that count too little do not raise a sum, however many they are. -/
theorem Modest.sum {numbers : List Float} {limit sumLimit : Int}
    (each : ∀ number ∈ numbers, Mild limit number) (small : limit + 55 ≤ sumLimit)
    (enough : -1019 ≤ limit) (noOverflow : sumLimit ≤ 971) :
    Modest sumLimit (numbers.foldl (· + ·) 0) := by
  have adds : ∀ first : Float, Modest sumLimit first →
      Modest sumLimit (numbers.foldl (· + ·) first) := by
    induction numbers with
    | nil => exact fun first modest => modest
    | cons number later induction =>
        intro first modest
        rw [List.forall_mem_cons] at each
        refine induction each.2 _ (modest.add_of_finite each.1 le_rfl (by omega) (by omega)
          noOverflow ?_)
        intro _ _ exponent _ _ _ isLeft isRight leftLow rightLow
        rcases lt_or_ge (sumLimit - 2) exponent with high | low
        · have full := isLeft.full.resolve_left (by omega)
          rw [add_eq_left isLeft full isRight.short (by omega)]
          exact .finite leftLow
        · obtain ⟨_, _, _, sum, -, -, low⟩ := exists_add isLeft isRight
          rw [sum]
          exact .finite (by omega)
  exact adds 0 .zero

/-- A sum counts at least as much as its first part. -/
theorem Heavy.add {left right : Float} {floor limit : Int} (heavy : Heavy floor left)
    (mild : Mild limit right) : Heavy floor (left + right) := by
  change IsHeavy _ (Float.Model.pack (UnpackedFloat.add .binary64 left.toModel.unpack
    right.toModel.unpack)).unpack
  rw [Heavy] at heavy
  rw [Mild] at mild
  generalize unpackedLeft : left.toModel.unpack = leftValue at heavy ⊢
  generalize unpackedRight : right.toModel.unpack = rightValue at mild ⊢
  cases heavy with
  | infinite => cases mild <;> exact isHeavy_infinity floor
  | finite high =>
      have isLeft := isCanonical_unpack unpackedLeft
      cases mild with
      | zero sign => exact isHeavy_unpack_pack isLeft _ high
      | finite low =>
          obtain ⟨_, _, _, sum, canonical, above, -⟩ :=
            exists_add isLeft (isCanonical_unpack unpackedRight)
          rw [sum]
          exact isHeavy_unpack_pack canonical _ (by omega)

/-- A sum counts at least as much as its second part. -/
theorem Modest.add_heavy {left right : Float} {floor limit : Int} (modest : Modest limit left)
    (heavy : Heavy floor right) : Heavy floor (left + right) := by
  change IsHeavy _ (Float.Model.pack (UnpackedFloat.add .binary64 left.toModel.unpack
    right.toModel.unpack)).unpack
  rw [Modest] at modest
  rw [Heavy] at heavy
  generalize unpackedLeft : left.toModel.unpack = leftValue at modest ⊢
  generalize unpackedRight : right.toModel.unpack = rightValue at heavy ⊢
  cases heavy with
  | infinite => cases modest <;> exact isHeavy_infinity floor
  | finite high =>
      have isRight := isCanonical_unpack unpackedRight
      cases modest with
      | zero => exact isHeavy_unpack_pack isRight _ high
      | finite low =>
          obtain ⟨_, _, _, sum, canonical, above, -⟩ :=
            exists_add (isCanonical_unpack unpackedLeft) isRight
          rw [sum]
          exact isHeavy_unpack_pack canonical _ (by omega)

/-- A quotient is bounded by how much more its first part counts. -/
theorem Modest.div_heavy {left right : Float} {leftLimit floor limit : Int}
    (modest : Modest leftLimit left) (heavy : Heavy floor right) (large : leftLimit - floor < limit)
    (enough : -1073 ≤ limit) (noOverflow : limit ≤ 971) : Modest limit (left / right) := by
  rw [Heavy] at heavy
  generalize unpackedRight : right.toModel.unpack = rightValue at heavy
  cases heavy with
  | finite high => exact modest.div unpackedRight (by omega) enough noOverflow
  | infinite =>
      change IsModest _ (Float.Model.pack (UnpackedFloat.div .binary64 left.toModel.unpack
        right.toModel.unpack)).unpack
      apply isModest_unpack_pack (by omega) noOverflow
      rw [Modest] at modest
      rw [unpackedRight]
      generalize left.toModel.unpack = leftValue at modest ⊢
      cases modest <;> exact .zero

theorem Heavy.mul_one {number : Float} {floor : Int} (heavy : Heavy floor number)
    (enough : -1022 ≤ floor) : Heavy floor (number * Float.ofBits 0x3FF0000000000000) := by
  have one : (Float.ofBits 0x3FF0000000000000).toModel.unpack =
      .finite .positive (2 ^ 52) (-52) (by decide) := rfl
  change IsHeavy _ (Float.Model.pack (UnpackedFloat.mul .binary64 number.toModel.unpack
    (Float.ofBits 0x3FF0000000000000).toModel.unpack)).unpack
  rw [one]
  rw [Heavy] at heavy
  generalize unpacked : number.toModel.unpack = value at heavy ⊢
  cases heavy with
  | infinite => exact isHeavy_infinity floor
  | @finite mantissa exponent positive high =>
      have canonical := isCanonical_unpack unpacked
      have digits : mantissa.log2 = 52 := (Nat.log2_eq_iff positive.ne').mpr
        ⟨canonical.full.resolve_left (by omega), canonical.short⟩
      have moved : (mantissa * 2 ^ 52).log2 = mantissa.log2 + 52 := by
        rw [← Nat.shiftLeft_eq, log2_shiftLeft positive]
      obtain ⟨_, _, _, product, isProduct, above, -⟩ :=
        @exists_roundWithAccuracy _ (exponent + -52) .exact
          (Nat.mul_pos positive (Nat.two_pow_pos 52)) (by omega) (by omega)
      change IsHeavy _ (Float.Model.pack (roundWithAccuracy .binary64 .positive (mantissa * 2 ^ 52)
        (exponent + -52) .exact)).unpack
      rw [product]
      exact isHeavy_unpack_pack isProduct _ (by omega)

/-- Counting from one on, the last bit counts at least as much as that of one. -/
theorem heavy_ofNat {number : Nat} (positive : 0 < number) (small : number < 2 ^ 53) :
    Heavy (-52) (Float.ofNat number) := by
  have stays : number.toUInt64.toNat = number := Nat.mod_eq_of_lt (by omega)
  have whole : Heavy (-52) number.toUInt64.toFloat := by
    change IsHeavy _ (Float.Model.pack
      (UnpackedFloat.normalize .binary64 number.toUInt64.toNat 0 .positive)).unpack
    rw [stays]
    obtain ⟨_, _, _, normal, canonical, high, -⟩ :=
      @exists_normalize (number : Int) 0 (by omega) (by omega)
    rw [normal]
    exact isHeavy_unpack_pack canonical _ (by omega)
  rw [ofNat_eq small]
  exact whole.mul_one (by omega)

/-! ## Smoothed shares -/

/-- The largest number that scores and smoothing may have. -/
theorem modest_large : Modest 280 (Float.ofNat (10 ^ 100)) := by
  have bits : Float.ofNat (10 ^ 100) = Float.ofBits 0x54B249AD2594C37D := by decide +kernel
  rw [bits]
  exact .finite (by decide)

theorem modest_share {part whole : Nat} (partSmall : part < 2 ^ 53) (positive : 0 < whole)
    (small : whole < 2 ^ 53) : Modest 56 (Float.ofNat part / Float.ofNat whole) :=
  (modest_ofNat partSmall).div_heavy (heavy_ofNat positive small) (by omega) (by omega) (by omega)

/-- Where there is no mass, only a share of some length counts. -/
theorem modest_unsmoothed {frequency length : Nat} {mass share : Float} (among : frequency ≤ length)
    (small : length < 2 ^ 53) (isZero : ∃ sign, mass.toModel.unpack = .zero sign)
    (isShare : Modest 56 share) (nonempty : 0 < length) :
    Modest 58 ((Float.ofNat frequency + mass * share) / (Float.ofNat length + mass)) := by
  have isZero : Mild (-1000) mass := by
    obtain ⟨sign, unpacked⟩ := isZero
    rw [Mild, unpacked]
    exact .zero sign
  have product : Mild 3 (mass * share) :=
    isZero.mul isShare.mild (by omega) (by omega) (by omega)
  have sum : Modest 5 (Float.ofNat frequency + mass * share) :=
    (modest_ofNat (among.trans_lt small)).add product (by omega) (by omega) (by omega) (by omega)
  exact sum.div_heavy ((heavy_ofNat nonempty small).add isZero) (by omega) (by omega) (by omega)

/-- The mass counts in both parts of the quotient, and the length counts at least as much as the
frequency. -/
theorem modest_smoothed_of_positive {frequency length : Nat} {mass share : Float} {mantissa : Nat}
    {exponent : Int} {positive : 0 < mantissa} (among : frequency ≤ length) (small : length < 2 ^ 53)
    (unpacked : mass.toModel.unpack = .finite .positive mantissa exponent positive)
    (low : exponent ≤ 280) (isShare : Modest 56 share) :
    Modest 113 ((Float.ofNat frequency + mass * share) / (Float.ofNat length + mass)) := by
  have least := (isCanonical_unpack unpacked).least
  have modestMass : Modest exponent mass := by
    rw [Modest, unpacked]
    exact .finite le_rfl
  have heavyMass : Heavy exponent mass := by
    rw [Heavy, unpacked]
    exact .finite le_rfl
  have product : Modest (exponent + 110) (mass * share) :=
    modestMass.mul isShare (by omega) (by omega) (by omega)
  have heavy : Heavy exponent (Float.ofNat length + mass) :=
    (modest_ofNat small).add_heavy heavyMass
  rcases Nat.eq_zero_or_pos length with rfl | nonempty
  · obtain rfl : frequency = 0 := Nat.le_zero.mp among
    have none : Modest (exponent + 110) (Float.ofNat 0) := .zero
    have sum : Modest (exponent + 112) (Float.ofNat 0 + mass * share) :=
      none.add product.mild (by omega) (by omega) (by omega) (by omega)
    exact sum.div_heavy heavy (by omega) (by omega) (by omega)
  · have modestFrequency := modest_ofNat (among.trans_lt small)
    rcases le_or_gt (exponent + 110) 3 with slight | large
    · have sum : Modest 5 (Float.ofNat frequency + mass * share) :=
        modestFrequency.add product.mild (by omega) (by omega) (by omega) (by omega)
      exact sum.div_heavy ((heavy_ofNat nonempty small).add modestMass.mild) (by omega) (by omega)
        (by omega)
    · have sum : Modest (exponent + 112) (Float.ofNat frequency + mass * share) :=
        modestFrequency.add product.mild (by omega) (by omega) (by omega) (by omega)
      exact sum.div_heavy heavy (by omega) (by omega) (by omega)

/-- A share that is smoothed by some mass stays small, unless neither the mass nor what is shared
counts anything. -/
theorem modest_smoothed {frequency length : Nat} {mass share : Float} (among : frequency ≤ length)
    (small : length < 2 ^ 53) (mild : Mild 280 mass) (isShare : Modest 56 share)
    (some : Float.ofNat 0 < mass ∨ length ≠ 0) :
    Modest 113 ((Float.ofNat frequency + mass * share) / (Float.ofNat length + mass)) := by
  rw [Mild] at mild
  cases unpacked : mass.toModel.unpack with
  | notANumber | infinity => rw [unpacked] at mild; cases mild
  | zero sign =>
      have nonempty : length ≠ 0 := some.resolve_left fun positive => by
        have less := lt_iff.mp positive
        rw [unpacked] at less
        cases sign <;> exact absurd less (by decide)
      exact (modest_unsmoothed among small ⟨sign, unpacked⟩ isShare
        (Nat.pos_of_ne_zero nonempty)).weaken (by omega)
  | finite =>
      rw [unpacked] at mild
      cases mild with
      | finite low => exact modest_smoothed_of_positive among small unpacked low isShare

end Retrieval.Number
