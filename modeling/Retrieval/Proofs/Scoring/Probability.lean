import Mathlib.Algebra.Order.BigOperators.Group.List
import Mathlib.Algebra.BigOperators.Ring.List
import Mathlib.Tactic.Linarith
import Retrieval.Proofs.Number.Exact
import Retrieval.Scoring

/-!
# Scores that are probabilities

In exact arithmetic the formulas of Indri lead from probabilities to probabilities, and none of them makes
a zero of what is not zero: smoothing, the noisy disjunction, and the weighted means whose weights are not
negative.
-/

namespace Retrieval

open ExactArithmetic

variable {ω : Type} [Arithmetic ω] [ExactArithmetic ω]

/-- The number is a probability other than zero. -/
def IsProbability (number : ω) : Prop :=
  value number ∈ Set.Ioc 0 1

/-! ## Products and sums of real numbers -/

theorem prod_mem_Ioc {numbers : List ℝ} (each : ∀ number ∈ numbers, number ∈ Set.Ioc 0 1) :
    numbers.prod ∈ Set.Ioc 0 1 :=
  List.prod_induction (· ∈ Set.Ioc (0 : ℝ) 1)
    (fun _ _ left right => ⟨mul_pos left.1 right.1, mul_le_one₀ left.2 right.1.le right.2⟩)
    ⟨one_pos, le_rfl⟩ each

theorem prod_mem_Ico {numbers : List ℝ} (each : ∀ number ∈ numbers, number ∈ Set.Ico 0 1)
    (nonempty : numbers ≠ []) : numbers.prod ∈ Set.Ico 0 1 :=
  List.prod_induction_nonempty (· ∈ Set.Ico (0 : ℝ) 1)
    (fun _ _ left right =>
      ⟨mul_nonneg left.1 right.1, mul_lt_one_of_nonneg_of_lt_one_left left.1 left.2 right.2.le⟩)
    nonempty each

/-- A sum weighted with what is not negative lies between the multiples of two bounds of its numbers. -/
theorem weighted_sum_mem_Icc {low high : ℝ} {weights numbers : List ℝ}
    (same : weights.length = numbers.length) (nonneg : ∀ weight ∈ weights, 0 ≤ weight)
    (each : ∀ number ∈ numbers, number ∈ Set.Icc low high) :
    (weights.zipWith (fun weight number => number * weight) numbers).sum ∈
      Set.Icc (low * weights.sum) (high * weights.sum) := by
  induction weights generalizing numbers with
  | nil => simp
  | cons weight weights induction =>
      cases numbers with
      | nil => simp at same
      | cons number numbers =>
          obtain ⟨first, later⟩ := List.forall_mem_cons.mp nonneg
          obtain ⟨⟨atLeast, atMost⟩, others⟩ := List.forall_mem_cons.mp each
          obtain ⟨lower, upper⟩ := induction (Nat.succ.inj same) later others
          simp only [List.zipWith_cons_cons, List.sum_cons, mul_add]
          exact ⟨add_le_add (mul_le_mul_of_nonneg_right atLeast first) lower,
            add_le_add (mul_le_mul_of_nonneg_right atMost first) upper⟩

/-! ## Smoothing -/

namespace Indri

/-- The share of a term in a collection that has tokens. -/
theorem isProbability_collectionShare {collectionFrequency tokens : Nat} (positive : 0 < tokens)
    (atMost : collectionFrequency ≤ tokens) :
    IsProbability (collectionShare ω collectionFrequency tokens) := by
  have tokens_pos : (0 : ℝ) < tokens := Nat.cast_pos.mpr positive
  have tokens_ne : value (Arithmetic.ofNat tokens : ω) ≠ 0 := by
    rw [value_ofNat]
    exact tokens_pos.ne'
  have two_ne : value (Arithmetic.ofNat 2 : ω) ≠ 0 := by
    rw [value_ofNat]
    exact two_ne_zero
  rw [IsProbability, collectionShare, if_neg positive.ne', value_div _ _ tokens_ne, value_ofNat]
  split
  · rw [value_div _ _ two_ne, value_one, value_ofNat]
    refine ⟨by positivity, ?_⟩
    have one_le : (1 : ℝ) ≤ tokens := Nat.one_le_cast.mpr positive
    rw [div_le_one tokens_pos]
    push_cast
    linarith
  · next occurs =>
      rw [value_ofNat]
      exact ⟨div_pos (Nat.cast_pos.mpr (Nat.pos_of_ne_zero occurs)) tokens_pos,
        (div_le_one tokens_pos).mpr (Nat.cast_le.mpr atMost)⟩

theorem validate_eq_ok_iff (parameters : Indri ω) :
    parameters.validate = .ok () ↔
      value parameters.lambda ∈ Set.Icc 0 1 ∧ 0 ≤ value parameters.mu := by
  rw [validate, ← isFraction_iff]
  cases Arithmetic.isFraction parameters.lambda with
  | false => simp
  | true => simp [lt_iff]

theorem collectionShare_mem_Icc {collectionFrequency tokens : Nat}
    (atMost : collectionFrequency ≤ tokens) :
    value (collectionShare ω collectionFrequency tokens) ∈ Set.Icc 0 1 := by
  rcases Nat.eq_zero_or_pos tokens with rfl | positive
  · simp [collectionShare]
  · exact Set.Ioc_subset_Icc_self (isProbability_collectionShare positive atMost)

variable {parameters : Indri ω} {frequency length : ω} {collectionFrequency tokens : Nat}

/-- The guard of the smoothing makes no difference, since zero is what division by zero gives. -/
theorem value_probability (valid : parameters.validate = .ok ()) (nonneg : 0 ≤ value length)
    (frequency : ω) (collectionFrequency tokens : Nat) :
    value (parameters.probability frequency length collectionFrequency tokens) =
      (1 - value parameters.lambda) *
          ((value frequency +
              value parameters.mu * value (collectionShare ω collectionFrequency tokens)) /
            (value length + value parameters.mu)) +
        value parameters.lambda * value (collectionShare ω collectionFrequency tokens) := by
  obtain ⟨-, mu_nonneg⟩ := (validate_eq_ok_iff parameters).mp valid
  simp only [probability, value_add, value_mul, value_sub, value_one]
  have mass : (0 < length + parameters.mu) ↔ 0 < value length + value parameters.mu := by
    rw [lt_iff, value_zero, value_add]
  by_cases positive : 0 < value length + value parameters.mu
  · have mass_ne : value (length + parameters.mu) ≠ 0 := by
      rw [value_add]
      exact positive.ne'
    rw [if_pos (mass.mpr positive), value_div _ _ mass_ne, value_add, value_add, value_mul]
  · have noMass : value length + value parameters.mu = 0 :=
      le_antisymm (not_lt.mp positive) (add_nonneg nonneg mu_nonneg)
    rw [if_neg (mt mass.mp positive), value_zero, noMass, div_zero]

/-- Smoothing makes a fraction of the occurrences in a document. -/
theorem probability_mem_Icc (valid : parameters.validate = .ok ()) (nonneg : 0 ≤ value frequency)
    (fits : value frequency ≤ value length) (atMost : collectionFrequency ≤ tokens) :
    value (parameters.probability frequency length collectionFrequency tokens) ∈ Set.Icc 0 1 := by
  obtain ⟨⟨lambda_nonneg, lambda_le⟩, mu_nonneg⟩ := (validate_eq_ok_iff parameters).mp valid
  obtain ⟨share_nonneg, share_le⟩ := collectionShare_mem_Icc (ω := ω) atMost
  have length_nonneg := nonneg.trans fits
  have rest_nonneg : 0 ≤ 1 - value parameters.lambda := sub_nonneg.mpr lambda_le
  rw [value_probability valid length_nonneg]
  generalize value (collectionShare ω collectionFrequency tokens) = share at share_nonneg share_le ⊢
  have smoothed_nonneg : 0 ≤ (value frequency + value parameters.mu * share) /
      (value length + value parameters.mu) :=
    div_nonneg (add_nonneg nonneg (mul_nonneg mu_nonneg share_nonneg))
      (add_nonneg length_nonneg mu_nonneg)
  have smoothed_le : (value frequency + value parameters.mu * share) /
      (value length + value parameters.mu) ≤ 1 :=
    div_le_one_of_le₀ (add_le_add fits (mul_le_of_le_one_right mu_nonneg share_le))
      (add_nonneg length_nonneg mu_nonneg)
  refine ⟨add_nonneg (mul_nonneg rest_nonneg smoothed_nonneg)
    (mul_nonneg lambda_nonneg share_nonneg), ?_⟩
  calc
    (1 - value parameters.lambda) * _ + value parameters.lambda * share
        ≤ (1 - value parameters.lambda) * 1 + value parameters.lambda * 1 :=
      add_le_add (mul_le_mul_of_nonneg_left smoothed_le rest_nonneg)
        (mul_le_mul_of_nonneg_left share_le lambda_nonneg)
    _ = 1 := by ring

/-- Smoothing does not make a zero if the collection has any weight in it, nor of a term that occurs
where the document has any. -/
theorem probability_pos (valid : parameters.validate = .ok ()) (nonneg : 0 ≤ value frequency)
    (fits : value frequency ≤ value length) (positive : 0 < tokens)
    (atMost : collectionFrequency ≤ tokens)
    (smooths : 0 < value parameters.lambda ∨ 0 < value parameters.mu ∨
      0 < value frequency ∧ value parameters.lambda < 1) :
    0 < value (parameters.probability frequency length collectionFrequency tokens) := by
  obtain ⟨⟨lambda_nonneg, lambda_le⟩, mu_nonneg⟩ := (validate_eq_ok_iff parameters).mp valid
  obtain ⟨share_pos, -⟩ := isProbability_collectionShare (ω := ω) positive atMost
  have length_nonneg := nonneg.trans fits
  rw [value_probability valid length_nonneg]
  generalize value (collectionShare ω collectionFrequency tokens) = share at share_pos ⊢
  have prior_nonneg : 0 ≤ value parameters.mu * share := mul_nonneg mu_nonneg share_pos.le
  rcases lambda_nonneg.eq_or_lt with zero | weighs
  · -- Without weight of the collection, the document itself has to bring the term.
    have brought : 0 < value parameters.mu ∨ 0 < value frequency :=
      (smooths.resolve_left (zero ▸ lt_irrefl _)).imp_right And.left
    rw [← zero, sub_zero, one_mul, zero_mul, add_zero]
    rcases brought with mass | occurs
    · exact div_pos (add_pos_of_nonneg_of_pos nonneg (mul_pos mass share_pos))
        (add_pos_of_nonneg_of_pos length_nonneg mass)
    · exact div_pos (add_pos_of_pos_of_nonneg occurs prior_nonneg)
        (add_pos_of_pos_of_nonneg (occurs.trans_le fits) mu_nonneg)
  · refine add_pos_of_nonneg_of_pos (mul_nonneg (sub_nonneg.mpr lambda_le) ?_)
      (mul_pos weighs share_pos)
    exact div_nonneg (add_nonneg nonneg prior_nonneg) (add_nonneg length_nonneg mu_nonneg)

/-- Smoothing leads to a probability other than zero if the collection has any weight in it. -/
theorem isProbability_probability (valid : parameters.validate = .ok ())
    (smooths : 0 < parameters.lambda ∨ 0 < parameters.mu) (nonneg : 0 ≤ value frequency)
    (fits : value frequency ≤ value length) (positive : 0 < tokens)
    (atMost : collectionFrequency ≤ tokens) :
    IsProbability (parameters.probability frequency length collectionFrequency tokens) := by
  rw [lt_iff, lt_iff, value_zero] at smooths
  exact ⟨probability_pos valid nonneg fits positive atMost (smooths.imp_right .inl),
    (probability_mem_Icc valid nonneg fits atMost).2⟩

end Indri

/-! ## Combinations -/

/-- A noisy disjunction of something. -/
theorem isProbability_noisyOr {probabilities : List ω}
    (each : ∀ probability ∈ probabilities, IsProbability probability)
    (nonempty : probabilities ≠ []) : IsProbability (noisyOr probabilities) := by
  have misses : ((probabilities.map (1 - ·)).map value).prod ∈ Set.Ico 0 1 := by
    refine prod_mem_Ico (fun number member => ?_) (by simpa using nonempty)
    simp only [List.map_map, List.mem_map, Function.comp_apply] at member
    obtain ⟨probability, among, rfl⟩ := member
    obtain ⟨positive, atMost⟩ := each probability among
    rw [value_sub, value_one]
    exact ⟨sub_nonneg.mpr atMost, sub_lt_self 1 positive⟩
  rw [IsProbability, noisyOr, value_sub, value_one, value_product]
  exact ⟨sub_pos.mpr misses.2, sub_le_self 1 misses.1⟩

theorem isProbability_product {probabilities : List ω}
    (each : ∀ probability ∈ probabilities, IsProbability probability) :
    IsProbability (Arithmetic.product probabilities) := by
  rw [IsProbability, value_product]
  exact prod_mem_Ioc (List.forall_mem_map.mpr each)

/-! ## Weights -/

theorem value_weightAt_nonneg {weights : List ω} (nonneg : ∀ weight ∈ weights, 0 ≤ value weight)
    (place : Nat) : 0 ≤ value (weightAt weights place) := by
  rw [weightAt, List.getD_eq_getElem?_getD]
  cases found : weights[place]? with
  | none => simp
  | some weight => exact nonneg weight (List.mem_of_getElem? found)

/-- Normalized weights are not negative and sum to one. -/
theorem normalizedWeights_spec {weights : List ω} (nonneg : ∀ weight ∈ weights, 0 ≤ value weight)
    {count : Nat} (positive : 0 < count) :
    (normalizedWeights weights count).length = count ∧
      (∀ weight ∈ normalizedWeights weights count, 0 ≤ value weight) ∧
      ((normalizedWeights weights count).map value).sum = 1 := by
  rw [normalizedWeights]
  have each : ∀ weight ∈ (List.range count).map (weightAt weights), 0 ≤ value weight :=
    List.forall_mem_map.mpr fun place _ => value_weightAt_nonneg nonneg place
  have length_eq : ((List.range count).map (weightAt weights)).length = count := by simp
  generalize (List.range count).map (weightAt weights) = given at each length_eq ⊢
  have total_eq := value_sum given
  generalize Arithmetic.sum given = total at total_eq ⊢
  refine ⟨by simpa using length_eq, ?_⟩
  split
  · next weighs =>
      rw [lt_iff, value_zero] at weighs
      have share : ∀ weight : ω, value (weight / total) = value weight / value total :=
        fun weight => value_div _ _ weighs.ne'
      refine ⟨List.forall_mem_map.mpr fun weight member => ?_, ?_⟩
      · rw [share]
        exact div_nonneg (each weight member) weighs.le
      · rw [List.map_map]
        simp only [Function.comp_def, share, div_eq_mul_inv]
        rw [List.sum_map_mul_right, ← total_eq]
        exact mul_inv_cancel₀ weighs.ne'
  · have count_ne : value (Arithmetic.ofNat count : ω) ≠ 0 := by
      rw [value_ofNat]
      exact Nat.cast_ne_zero.mpr positive.ne'
    have share : value (1 / Arithmetic.ofNat count : ω) = 1 / count := by
      rw [value_div _ _ count_ne, value_one, value_ofNat]
    refine ⟨List.forall_mem_map.mpr fun weight _ => ?_, ?_⟩
    · rw [share]
      positivity
    · rw [List.map_map]
      simp only [Function.comp_def, share, List.map_const', List.sum_replicate, length_eq]
      rw [value_ofNat] at count_ne
      rw [nsmul_eq_mul, mul_one_div_cancel count_ne]

theorem mem_Icc_of_sum_eq_one {weights : List ω} (nonneg : ∀ weight ∈ weights, 0 ≤ value weight)
    (total : (weights.map value).sum = 1) {weight : ω} (member : weight ∈ weights) :
    value weight ∈ Set.Icc 0 1 :=
  ⟨nonneg weight member, total ▸ List.single_le_sum (List.forall_mem_map.mpr nonneg) _
    (List.mem_map_of_mem member)⟩

theorem value_combine_wsum {numbers : List ω} (weights : List ω) (nonempty : numbers ≠ []) :
    value (combine .wsum weights numbers) =
      (((normalizedWeights weights numbers.length).map value).zipWith
        (fun weight number => number * weight) (numbers.map value)).sum := by
  rw [combine, if_neg (by simpa using nonempty), value_sumFromFirst, List.map_zipWith,
    List.zipWith_map]
  simp only [value_mul]

/-- A weighted sum under Indri lies between any bounds of the numbers. -/
theorem value_combine_wsum_mem_Icc {low high : ℝ} {weights numbers : List ω}
    (nonneg : ∀ weight ∈ weights, 0 ≤ value weight) (nonempty : numbers ≠ [])
    (each : ∀ number ∈ numbers, value number ∈ Set.Icc low high) :
    value (combine .wsum weights numbers) ∈ Set.Icc low high := by
  obtain ⟨sameLength, weights_nonneg, weights_sum⟩ :=
    normalizedWeights_spec nonneg (List.length_pos_iff.mpr nonempty)
  have bounds := @weighted_sum_mem_Icc low high
    ((normalizedWeights weights numbers.length).map value) (numbers.map value)
    (by simpa using sameLength) (List.forall_mem_map.mpr weights_nonneg)
    (List.forall_mem_map.mpr each)
  rwa [weights_sum, mul_one, mul_one, ← value_combine_wsum weights nonempty] at bounds

/-- Of some numbers one is the smallest and one is the largest. -/
theorem exists_extremes {numbers : List ω} (nonempty : numbers ≠ []) :
    ∃ smallest ∈ numbers, ∃ largest ∈ numbers,
      ∀ number ∈ numbers, value number ∈ Set.Icc (value smallest) (value largest) := by
  have occupied : {number | number ∈ numbers}.Nonempty := List.exists_mem_of_ne_nil _ nonempty
  obtain ⟨smallest, inside, least⟩ := Set.exists_min_image _ value numbers.finite_toSet occupied
  obtain ⟨largest, among, greatest⟩ := Set.exists_max_image _ value numbers.finite_toSet occupied
  exact ⟨smallest, inside, largest, among,
    fun number member => ⟨least number member, greatest number member⟩⟩

/-- Whatever an operator combines, the probabilities of its operands make a probability. -/
theorem isProbability_combine {operator : ScoringOperator} {weights probabilities : List ω}
    (combines : operator = .and ∨ operator = .or ∨ operator = .wand ∨ operator = .wsum)
    (nonneg : ∀ weight ∈ weights, 0 ≤ value weight)
    (each : ∀ probability ∈ probabilities, IsProbability probability)
    (nonempty : probabilities ≠ []) : IsProbability (combine operator weights probabilities) := by
  have count_pos : 0 < probabilities.length := List.length_pos_iff.mpr nonempty
  have occupied : ¬(probabilities.isEmpty = true) := by simpa using nonempty
  obtain ⟨sameLength, weights_nonneg, weights_sum⟩ := normalizedWeights_spec nonneg count_pos
  rcases combines with rfl | rfl | rfl | rfl
  · rw [combine, if_neg occupied]
    refine isProbability_product (List.forall_mem_map.mpr fun probability member => ?_)
    refine value_pow_mem _ _ (each probability member) ?_
    have count_ge : (1 : ℝ) ≤ probabilities.length := Nat.one_le_cast.mpr count_pos
    have count_ne : value (Arithmetic.ofNat probabilities.length : ω) ≠ 0 := by
      rw [value_ofNat]
      exact (zero_lt_one.trans_le count_ge).ne'
    rw [value_div _ _ count_ne, value_one, value_ofNat]
    exact ⟨by positivity, (div_le_one (zero_lt_one.trans_le count_ge)).mpr count_ge⟩
  · rw [combine, if_neg occupied]
    exact isProbability_noisyOr each nonempty
  · rw [combine, if_neg occupied]
    refine isProbability_product fun power member => ?_
    obtain ⟨place, inside, rfl⟩ := List.mem_iff_getElem.mp member
    rw [List.getElem_zipWith]
    exact value_pow_mem _ _ (each _ (List.getElem_mem _))
      (mem_Icc_of_sum_eq_one weights_nonneg weights_sum (List.getElem_mem _))
  · obtain ⟨smallest, inside, largest, among, extremes⟩ := exists_extremes nonempty
    obtain ⟨atLeast, atMost⟩ := value_combine_wsum_mem_Icc nonneg nonempty extremes
    exact ⟨(each smallest inside).1.trans_le atLeast, atMost.trans (each largest among).2⟩

end Retrieval
