import Retrieval.Proofs.Scoring.Probability

/-!
# Formulas that keep the order of scores

In exact arithmetic the formulas of Indri do not fall where the fractions that they combine rise: the
noisy disjunction, and the weighted means whose weights are not negative. Smoothing does not fall where a
document has more occurrences.
-/

namespace Retrieval

open ExactArithmetic

/-- Two fractions, the second of which is not less than the first. -/
structure Rises (low high : ℝ) : Prop where
  nonneg : 0 ≤ low
  le : low ≤ high
  le_one : high ≤ 1

namespace Rises

variable {low high : ℝ} {lows highs : List ℝ}

theorem self (nonneg : 0 ≤ low) (le_one : low ≤ 1) : Rises low low := ⟨nonneg, le_rfl, le_one⟩

theorem low_self (rises : Rises low high) : Rises low low :=
  self rises.nonneg (rises.le.trans rises.le_one)

theorem high_self (rises : Rises low high) : Rises high high :=
  self (rises.nonneg.trans rises.le) rises.le_one

/-- What the fractions lack to one falls. -/
theorem complement (rises : Rises low high) : Rises (1 - high) (1 - low) :=
  ⟨sub_nonneg.mpr rises.le_one, sub_le_sub_left rises.le 1, sub_le_self 1 rises.nonneg⟩

theorem prod (each : List.Forall₂ Rises lows highs) : Rises lows.prod highs.prod := by
  induction each with
  | nil => exact self zero_le_one le_rfl
  | cons first later induction =>
      rw [List.prod_cons, List.prod_cons]
      exact ⟨mul_nonneg first.nonneg induction.nonneg,
        mul_le_mul first.le induction.le induction.nonneg first.high_self.nonneg,
        mul_le_one₀ first.le_one induction.high_self.nonneg induction.le_one⟩

/-- Sums with weights that are not negative rise with the numbers, up to the sum of the weights. -/
theorem weighted_sum (each : List.Forall₂ Rises lows highs) {weights : List ℝ}
    (same : weights.length = lows.length) (weighs : ∀ weight ∈ weights, 0 ≤ weight) :
    let sum := fun numbers : List ℝ =>
      (weights.zipWith (fun weight number => number * weight) numbers).sum
    0 ≤ sum lows ∧ sum lows ≤ sum highs ∧ sum highs ≤ weights.sum := by
  induction each generalizing weights with
  | nil =>
      obtain rfl := List.length_eq_zero_iff.mp same
      simp
  | cons first later induction =>
      cases weights with
      | nil => simp at same
      | cons weight weights =>
          obtain ⟨nonneg, others⟩ := List.forall_mem_cons.mp weighs
          obtain ⟨lower, between, upper⟩ := induction (Nat.succ.inj same) others
          simp only [List.zipWith_cons_cons, List.sum_cons]
          exact ⟨add_nonneg (mul_nonneg first.nonneg nonneg) lower,
            add_le_add (mul_le_mul_of_nonneg_right first.le nonneg) between,
            add_le_add (mul_le_of_le_one_left nonneg first.le_one) upper⟩

end Rises

/-- Powers of fractions with fractions as exponents are not negative, and do not fall where the base
rises. -/
structure PowersRise (ω : Type) [Arithmetic ω] [ExactArithmetic ω] : Prop where
  nonneg : ∀ exponent : ω, value exponent ∈ Set.Icc 0 1 → 0 ≤ value (Arithmetic.pow 0 exponent)
  mono : ∀ low high exponent : ω, Rises (value low) (value high) → value exponent ∈ Set.Icc 0 1 →
    value (Arithmetic.pow low exponent) ≤ value (Arithmetic.pow high exponent)

theorem RealNumber.powersRise : PowersRise RealNumber where
  nonneg exponent _ := by
    rw [value_pow, value_zero]
    exact Real.rpow_nonneg le_rfl _
  mono low high exponent rises fraction := by
    rw [value_pow, value_pow]
    exact Real.rpow_le_rpow rises.nonneg rises.le fraction.1

variable {ω : Type} [Arithmetic ω] [ExactArithmetic ω]

/-! ## Smoothing -/

namespace Indri

/-- Smoothing makes fractions of frequencies, and greater ones of greater frequencies. -/
theorem rises_probability {parameters : Indri ω} (valid : parameters.validate = .ok ())
    {low high length : ω} {collectionFrequency tokens : Nat} (nonneg : 0 ≤ value low)
    (atMost : value low ≤ value high) (fits : value high ≤ value length)
    (collection : collectionFrequency ≤ tokens) :
    Rises (value (parameters.probability low length collectionFrequency tokens))
      (value (parameters.probability high length collectionFrequency tokens)) := by
  obtain ⟨⟨-, lambda_le⟩, mu_nonneg⟩ := (validate_eq_ok_iff parameters).mp valid
  have length_nonneg : 0 ≤ value length := nonneg.trans (atMost.trans fits)
  refine ⟨(probability_mem_Icc valid nonneg (atMost.trans fits) collection).1, ?_,
    (probability_mem_Icc valid (nonneg.trans atMost) fits collection).2⟩
  rw [value_probability valid length_nonneg, value_probability valid length_nonneg]
  have smoothed := div_le_div_of_nonneg_right
    (add_le_add_left atMost
      (value parameters.mu * value (collectionShare ω collectionFrequency tokens)))
    (add_nonneg length_nonneg mu_nonneg)
  exact add_le_add_left (mul_le_mul_of_nonneg_left smoothed (sub_nonneg.mpr lambda_le)) _

end Indri

/-! ## Combinations -/

/-- The numbers of the first list are fractions, and those of the second one are not less. -/
abbrev RiseEach (lows highs : List ω) : Prop :=
  List.Forall₂ (fun low high => Rises (value low) (value high)) lows highs

variable {lows highs weights : List ω}

theorem rises_noisyOr (each : RiseEach lows highs) :
    Rises (value (noisyOr lows)) (value (noisyOr highs)) := by
  have missed : List.Forall₂ Rises ((highs.map (1 - ·)).map value) ((lows.map (1 - ·)).map value) := by
    simp only [List.forall₂_map_left_iff, List.forall₂_map_right_iff, value_sub, value_one]
    exact (each.imp fun _ _ rises => rises.complement).flip
  simp only [noisyOr, value_sub, value_one, value_product]
  exact (Rises.prod missed).complement

theorem rises_product (each : RiseEach lows highs) :
    Rises (value (Arithmetic.product lows)) (value (Arithmetic.product highs)) := by
  rw [value_product, value_product]
  refine .prod ?_
  rwa [List.forall₂_map_left_iff, List.forall₂_map_right_iff]

theorem PowersRise.rises_pow (powers : PowersRise ω) {low high exponent : ω}
    (rises : Rises (value low) (value high)) (fraction : value exponent ∈ Set.Icc 0 1) :
    Rises (value (Arithmetic.pow low exponent)) (value (Arithmetic.pow high exponent)) := by
  have fromZero : Rises (value (0 : ω)) (value low) :=
    ⟨value_zero.ge, value_zero.le.trans rises.nonneg, rises.low_self.le_one⟩
  have toOne : Rises (value high) (value (1 : ω)) :=
    ⟨rises.high_self.nonneg, rises.le_one.trans value_one.ge, value_one.le⟩
  have one_mem : value (1 : ω) ∈ Set.Ioc 0 1 := by simp
  exact ⟨(powers.nonneg exponent fraction).trans (powers.mono _ _ _ fromZero fraction),
    powers.mono _ _ _ rises fraction,
    (powers.mono _ _ _ toOne fraction).trans (value_pow_mem _ _ one_mem fraction).2⟩

theorem PowersRise.riseEach_zipWith_pow (powers : PowersRise ω) (each : RiseEach lows highs)
    (fractions : ∀ weight ∈ weights, value weight ∈ Set.Icc 0 1) :
    RiseEach (weights.zipWith (fun weight number => Arithmetic.pow number weight) lows)
      (weights.zipWith (fun weight number => Arithmetic.pow number weight) highs) := by
  induction each generalizing weights with
  | nil => simp [RiseEach]
  | cons first later induction =>
      cases weights with
      | nil => exact .nil
      | cons weight weights =>
          obtain ⟨fraction, others⟩ := List.forall_mem_cons.mp fractions
          exact .cons (powers.rises_pow first fraction) (induction others)

theorem inverse_mem_Icc {count : Nat} (positive : 0 < count) :
    value (1 / Arithmetic.ofNat count : ω) ∈ Set.Icc 0 1 := by
  have count_ge : (1 : ℝ) ≤ count := Nat.one_le_cast.mpr positive
  have count_ne : value (Arithmetic.ofNat count : ω) ≠ 0 := by
    rw [value_ofNat]
    exact (zero_lt_one.trans_le count_ge).ne'
  rw [value_div _ _ count_ne, value_one, value_ofNat]
  exact ⟨by positivity, (div_le_one (zero_lt_one.trans_le count_ge)).mpr count_ge⟩

/-- Whatever an operator combines, it makes a fraction of the fractions of its operands, and a greater one
of greater fractions. -/
theorem PowersRise.rises_combine (powers : PowersRise ω) {operator : ScoringOperator}
    (combines : operator = .and ∨ operator = .or ∨ operator = .wand ∨ operator = .wsum)
    (weighs : ∀ weight ∈ weights, 0 ≤ value weight) (each : RiseEach lows highs) :
    Rises (value (combine operator weights lows)) (value (combine operator weights highs)) := by
  have same := each.length_eq
  rcases Nat.eq_zero_or_pos lows.length with none | positive
  · obtain rfl := List.length_eq_zero_iff.mp none
    obtain rfl := List.forall₂_nil_left_iff.mp each
    simpa [combine] using Rises.self le_rfl zero_le_one
  · obtain ⟨sameLength, weights_nonneg, weights_sum⟩ := normalizedWeights_spec weighs positive
    have lows_nonempty : lows ≠ [] := List.length_pos_iff.mp positive
    have highs_nonempty : highs ≠ [] := List.length_pos_iff.mp (same ▸ positive)
    have lows_occupied : ¬ lows.isEmpty = true := by simpa using lows_nonempty
    have highs_occupied : ¬ highs.isEmpty = true := by simpa using highs_nonempty
    have fractions : ∀ weight ∈ normalizedWeights weights lows.length, value weight ∈ Set.Icc 0 1 :=
      fun weight member => mem_Icc_of_sum_eq_one weights_nonneg weights_sum member
    rcases combines with rfl | rfl | rfl | rfl
    · rw [combine, combine, if_neg lows_occupied, if_neg highs_occupied, ← same]
      refine rises_product ?_
      simp only [RiseEach, List.forall₂_map_left_iff, List.forall₂_map_right_iff]
      exact each.imp fun _ _ rises => powers.rises_pow rises (inverse_mem_Icc positive)
    · rw [combine, combine, if_neg lows_occupied, if_neg highs_occupied]
      exact rises_noisyOr each
    · rw [combine, combine, if_neg lows_occupied, if_neg highs_occupied, ← same]
      exact rises_product (powers.riseEach_zipWith_pow each fractions)
    · have values : List.Forall₂ Rises (lows.map value) (highs.map value) := by
        rwa [List.forall₂_map_left_iff, List.forall₂_map_right_iff]
      obtain ⟨lower, between, upper⟩ := @Rises.weighted_sum _ _ values
        ((normalizedWeights weights lows.length).map value) (by simpa using sameLength)
        (List.forall_mem_map.mpr weights_nonneg)
      rw [value_combine_wsum weights lows_nonempty, value_combine_wsum weights highs_nonempty, ← same]
      exact ⟨lower, between, upper.trans weights_sum.le⟩

end Retrieval
