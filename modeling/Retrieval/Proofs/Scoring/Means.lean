import Mathlib.Algebra.BigOperators.Group.List.Basic
import Mathlib.Tactic.NormNum
import Retrieval.Proofs.Scoring.Rising

/-!
# Scores as fractions

Probabilities that may be zero as well: in exact arithmetic smoothing makes fractions, with a zero only where
neither the document nor the collection brings anything, and the operands of a weighted sum or of a noisy
disjunction bound its score.
-/

namespace Retrieval

open ExactArithmetic

/-! ## Products of fractions -/

theorem prod_mem_Icc {numbers : List ℝ} (each : ∀ number ∈ numbers, number ∈ Set.Icc 0 1) :
    numbers.prod ∈ Set.Icc 0 1 :=
  List.prod_induction (· ∈ Set.Icc (0 : ℝ) 1)
    (fun _ _ left right => ⟨mul_nonneg left.1 right.1, mul_le_one₀ left.2 right.1 right.2⟩)
    ⟨zero_le_one, le_rfl⟩ each

/-- A product of fractions is not greater than any of them. -/
theorem prod_le_of_mem {numbers : List ℝ} (each : ∀ number ∈ numbers, number ∈ Set.Icc 0 1)
    {number : ℝ} (member : number ∈ numbers) : numbers.prod ≤ number := by
  have others : (numbers.erase number).prod ∈ Set.Icc 0 1 :=
    prod_mem_Icc fun other among => each other (List.mem_of_mem_erase among)
  rw [← List.prod_erase member]
  exact mul_le_of_le_one_right (each number member).1 others.2

variable {ω : Type} [Arithmetic ω] [ExactArithmetic ω]

/-! ## Disjunctions -/

/-- A noisy disjunction lies between any of its operands and one. -/
theorem value_noisyOr_mem_Icc {probabilities : List ω}
    (each : ∀ probability ∈ probabilities, value probability ∈ Set.Icc 0 1) {probability : ω}
    (member : probability ∈ probabilities) :
    value (noisyOr probabilities) ∈ Set.Icc (value probability) 1 := by
  have missed : ∀ number ∈ (probabilities.map (1 - ·)).map value, number ∈ Set.Icc (0 : ℝ) 1 := by
    simp only [List.map_map, List.forall_mem_map, Function.comp_apply, value_sub, value_one]
    exact fun other among =>
      ⟨sub_nonneg.mpr (each other among).2, sub_le_self 1 (each other among).1⟩
  have own : 1 - value probability ∈ (probabilities.map (1 - ·)).map value := by
    rw [← value_one (ω := ω), ← value_sub]
    exact List.mem_map_of_mem (List.mem_map_of_mem member)
  rw [noisyOr, value_sub, value_one, value_product]
  exact ⟨le_sub_comm.mp (prod_le_of_mem missed own), sub_le_self 1 (prod_mem_Icc missed).1⟩

/-! ## The probability model -/

/-- What smoothing makes of a frequency in a document and of one in the collection. -/
structure Indri.SmoothsToFraction (parameters : Indri ω) (frequency length : ω)
    (collectionFrequency tokens : Nat) : Prop where
  share_mem : value (Indri.collectionShare ω collectionFrequency tokens) ∈ Set.Icc 0 1
  mem : value (parameters.probability frequency length collectionFrequency tokens) ∈ Set.Icc 0 1
  mono : ∀ more : ω, value frequency ≤ value more → value more ≤ value length →
    value (parameters.probability frequency length collectionFrequency tokens) ≤
      value (parameters.probability more length collectionFrequency tokens)
  pos : 0 < tokens → (0 < value parameters.lambda ∨ 0 < value parameters.mu ∨
      0 < value frequency ∧ value parameters.lambda < 1) →
    0 < value (parameters.probability frequency length collectionFrequency tokens)

theorem Indri.smoothsToFraction {parameters : Indri ω} {frequency length : ω}
    {collectionFrequency tokens : Nat} (valid : parameters.validate = .ok ())
    (nonneg : 0 ≤ value frequency) (fits : value frequency ≤ value length)
    (atMost : collectionFrequency ≤ tokens) :
    parameters.SmoothsToFraction frequency length collectionFrequency tokens where
  share_mem := collectionShare_mem_Icc atMost
  mem := probability_mem_Icc valid nonneg fits atMost
  mono _ rises short := (rises_probability valid nonneg rises short atMost).le
  pos positive := probability_pos valid nonneg fits positive atMost

/-- The weights of a combination are normalized, and its operands bound the score. -/
structure CombinesWithin (weights probabilities : List ω) : Prop where
  length_eq : (normalizedWeights weights probabilities.length).length = probabilities.length
  nonneg : ∀ weight ∈ normalizedWeights weights probabilities.length, 0 ≤ value weight
  sum_eq_one : ((normalizedWeights weights probabilities.length).map value).sum = 1
  bounded : ∃ smallest ∈ probabilities, ∃ largest ∈ probabilities,
    (∀ probability ∈ probabilities,
      value probability ∈ Set.Icc (value smallest) (value largest)) ∧
    value (combine .wsum weights probabilities) ∈ Set.Icc (value smallest) (value largest) ∧
    value (combine .or weights probabilities) ∈ Set.Icc (value largest) 1

theorem combinesWithin {weights probabilities : List ω}
    (nonneg : ∀ weight ∈ weights, 0 ≤ value weight)
    (each : ∀ probability ∈ probabilities, value probability ∈ Set.Icc 0 1)
    (nonempty : probabilities ≠ []) : CombinesWithin weights probabilities := by
  obtain ⟨length_eq, weights_nonneg, weights_sum⟩ :=
    normalizedWeights_spec nonneg (List.length_pos_iff.mpr nonempty)
  obtain ⟨smallest, inside, largest, among, extremes⟩ := exists_extremes nonempty
  refine ⟨length_eq, weights_nonneg, weights_sum, smallest, inside, largest, among, extremes,
    value_combine_wsum_mem_Icc nonneg nonempty extremes, ?_⟩
  rw [combine, if_neg (by simpa using nonempty)]
  exact value_noisyOr_mem_Icc each among

/-- With parameters in their ranges, Indri smooths frequencies to fractions, and it combines fractions to
fractions between or above them. -/
theorem Indri.probability_model :
    (∀ (parameters : Indri ω) (frequency length : ω) (collectionFrequency tokens : Nat),
      value parameters.lambda ∈ Set.Icc 0 1 → 0 ≤ value parameters.mu →
      0 ≤ value frequency → value frequency ≤ value length → collectionFrequency ≤ tokens →
      parameters.SmoothsToFraction frequency length collectionFrequency tokens) ∧
    ∀ weights probabilities : List ω, (∀ weight ∈ weights, 0 ≤ value weight) →
      (∀ probability ∈ probabilities, value probability ∈ Set.Icc 0 1) → probabilities ≠ [] →
      CombinesWithin weights probabilities := by
  constructor
  · intro parameters frequency length collectionFrequency tokens fraction mass nonneg fits atMost
    have valid := (validate_eq_ok_iff parameters).mpr ⟨fraction, mass⟩
    exact smoothsToFraction valid nonneg fits atMost
  · intro weights probabilities nonneg each nonempty
    exact combinesWithin nonneg each nonempty

/-- Nothing but the document counts towards a term that is in one of its two places, and no weight is given
to either of two operands. -/
theorem Indri.probability_model_halves :
    let parameters : Indri RealNumber := ⟨⟨0⟩, ⟨0⟩⟩
    let weights : List RealNumber := [⟨0⟩, ⟨0⟩]
    let probabilities : List RealNumber := [⟨1 / 4⟩, ⟨3 / 4⟩]
    parameters.SmoothsToFraction ⟨1⟩ ⟨2⟩ 3 10 ∧
      0 < value (parameters.probability ⟨1⟩ ⟨2⟩ 3 10) ∧ CombinesWithin weights probabilities := by
  intro parameters weights probabilities
  have smoothed : parameters.SmoothsToFraction ⟨1⟩ ⟨2⟩ 3 10 := by
    refine Indri.probability_model.1 parameters ⟨1⟩ ⟨2⟩ 3 10 ?_ ?_ ?_ ?_ ?_ <;> norm_num [parameters]
  have combined : CombinesWithin weights probabilities := by
    refine Indri.probability_model.2 weights probabilities ?_ ?_ (List.cons_ne_nil _ _) <;>
      norm_num [weights, probabilities]
  refine ⟨smoothed, smoothed.pos (by norm_num) (.inr (.inr ?_)), combined⟩
  norm_num [parameters]

end Retrieval
