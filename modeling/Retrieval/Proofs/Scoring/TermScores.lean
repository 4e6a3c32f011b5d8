import Mathlib.Tactic.Linarith
import Mathlib.Tactic.Positivity
import Retrieval.Model
import Retrieval.Proofs.Number.Exact

/-!
# Scores of terms under BM25

In exact arithmetic, with accepted parameters and a term that occurs, the three weights of BM25 are
defined and stay within their bounds. Their product does not fall where the term occurs more often in
the document or in the query, where the document is shorter, or where fewer documents have the term.
Of the logarithm nothing is used but that it does not fall.
-/

namespace Retrieval

open ExactArithmetic

/-- The logarithms of greater positive numbers are not less. -/
def LogarithmRises (ω : Type) [Arithmetic ω] [ExactArithmetic ω] : Prop :=
  ∀ low high : ω, 0 < value low → value low ≤ value high →
    value (Arithmetic.log low) ≤ value (Arithmetic.log high)

theorem RealNumber.logarithmRises : LogarithmRises RealNumber :=
  fun _ _ positive atMost => Real.log_le_log positive atMost

/-- The share of an amount in what it makes with another one rises with the amount and falls with the
other one. -/
theorem share_le_share {low high more less : ℝ} (positive : 0 < low) (atMost : low ≤ high)
    (nonneg : 0 ≤ less) (fewer : less ≤ more) : low / (low + more) ≤ high / (high + less) := by
  have high_pos : 0 < high := positive.trans_le atMost
  rw [div_le_div_iff₀ (by linarith) (by linarith)]
  have crossed : low * less ≤ high * more := mul_le_mul atMost fewer nonneg high_pos.le
  linarith

variable {ω : Type} [Arithmetic ω] [ExactArithmetic ω]

/-! ## Statistics -/

namespace Bm25Statistics

/-- The term occurs in the document and in the query, and in no more documents than there are. -/
structure Occurs (statistics : Bm25Statistics ω) : Prop where
  frequency : 1 ≤ value statistics.frequency
  documentFrequency : 1 ≤ value statistics.documentFrequency
  documents : value statistics.documentFrequency ≤ value statistics.documents
  length : 1 ≤ value statistics.length
  meanLength : 0 ≤ value statistics.meanLength
  queryFrequency : 1 ≤ value statistics.queryFrequency

/-- In the same collection, the second statistics speak for the document at least as much as the first
ones. -/
structure Rise (low high : Bm25Statistics ω) : Prop where
  frequency : value low.frequency ≤ value high.frequency
  documentFrequency : value high.documentFrequency ≤ value low.documentFrequency
  documents : value high.documents = value low.documents
  length : value high.length ≤ value low.length
  meanLength : value high.meanLength = value low.meanLength
  queryFrequency : value low.queryFrequency ≤ value high.queryFrequency

end Bm25Statistics

namespace Bm25

theorem validate_eq_ok_iff (parameters : Bm25 ω) :
    parameters.validate = .ok () ↔
      0 ≤ value parameters.k1 ∧ 0 ≤ value parameters.k3 ∧ value parameters.b ∈ Set.Icc 0 1 := by
  have negative : (parameters.k1 < 0 || parameters.k3 < 0) = true ↔
      ¬ (0 ≤ value parameters.k1 ∧ 0 ≤ value parameters.k3) := by
    rw [Bool.or_eq_true, decide_eq_true_eq, decide_eq_true_eq, lt_iff, lt_iff, value_zero,
      not_and_or, not_le, not_le]
  rw [validate, ← isFraction_iff, ← and_assoc]
  split
  · next outside => simp [negative.mp outside]
  · next inside =>
      have nonneg := not_not.mp (mt negative.mpr inside)
      cases Arithmetic.isFraction parameters.b with
      | false => simp
      | true => simp [nonneg]

variable {parameters : Bm25 ω} {statistics low high : Bm25Statistics ω}

/-! ## Rarity -/

/-- The documents without a term by the documents with it, half a document being added to both. -/
def odds (documents documentFrequency : ω) : ω :=
  (documents - documentFrequency + 1 / Arithmetic.ofNat 2) /
    (documentFrequency + 1 / Arithmetic.ofNat 2)

omit [ExactArithmetic ω] in
theorem rarity_eq (documents documentFrequency : ω) :
    rarity documents documentFrequency =
      Arithmetic.larger (Arithmetic.log (odds documents documentFrequency)) 0 := rfl

theorem value_rarity (documents documentFrequency : ω) :
    value (rarity documents documentFrequency) =
      max (value (Arithmetic.log (odds documents documentFrequency))) 0 := by
  rw [rarity_eq, value_larger, value_zero]

theorem value_documentFrequency_add_half_pos (occurs : statistics.Occurs) :
    0 < value (statistics.documentFrequency + 1 / Arithmetic.ofNat 2) := by
  rw [value_add, value_half]
  linarith [occurs.documentFrequency]

theorem value_odds (occurs : statistics.Occurs) :
    value (odds statistics.documents statistics.documentFrequency) =
      (value statistics.documents - value statistics.documentFrequency + 1 / 2) /
        (value statistics.documentFrequency + 1 / 2) := by
  rw [odds, value_div _ _ (value_documentFrequency_add_half_pos occurs).ne', value_add, value_add,
    value_sub, value_half]

theorem value_odds_pos (occurs : statistics.Occurs) :
    0 < value (odds statistics.documents statistics.documentFrequency) := by
  rw [value_odds occurs]
  exact div_pos (by linarith [occurs.documents]) (by linarith [occurs.documentFrequency])

theorem value_odds_le (lowOccurs : low.Occurs) (highOccurs : high.Occurs) (rise : low.Rise high) :
    value (odds low.documents low.documentFrequency) ≤
      value (odds high.documents high.documentFrequency) := by
  have fewer := rise.documentFrequency
  rw [value_odds lowOccurs, value_odds highOccurs, rise.documents]
  exact div_le_div₀ (by linarith [lowOccurs.documents]) (by linarith)
    (by linarith [highOccurs.documentFrequency]) (by linarith)

theorem value_rarity_le (rises : LogarithmRises ω) (lowOccurs : low.Occurs)
    (highOccurs : high.Occurs) (rise : low.Rise high) :
    value (rarity low.documents low.documentFrequency) ≤
      value (rarity high.documents high.documentFrequency) := by
  rw [value_rarity, value_rarity]
  exact max_le_max_right 0
    (rises _ _ (value_odds_pos lowOccurs) (value_odds_le lowOccurs highOccurs rise))

/-! ## Occurrences in the document -/

/-- The length of a document beside the mean length. -/
def relativeLength (length meanLength : ω) : ω :=
  if 0 < meanLength then length / meanLength else 1

/-- What the occurrences in a document of a length are set against. -/
def damping (parameters : Bm25 ω) (length meanLength : ω) : ω :=
  parameters.k1 * (1 - parameters.b + parameters.b * relativeLength length meanLength)

omit [ExactArithmetic ω] in
theorem frequencyWeight_eq (parameters : Bm25 ω) (frequency length meanLength : ω) :
    parameters.frequencyWeight frequency length meanLength =
      frequency / (frequency + parameters.damping length meanLength) := rfl

theorem value_relativeLength (length meanLength : ω) :
    value (relativeLength length meanLength) =
      if 0 < value meanLength then value length / value meanLength else 1 := by
  have positive : (0 < meanLength) = (0 < value meanLength) := by
    rw [lt_iff, value_zero]
  rw [relativeLength]
  simp only [positive]
  split
  · next mean => rw [value_div _ _ mean.ne']
  · exact value_one

theorem value_relativeLength_nonneg (occurs : statistics.Occurs) :
    0 ≤ value (relativeLength statistics.length statistics.meanLength) := by
  rw [value_relativeLength]
  split
  · next mean => exact div_nonneg (zero_le_one.trans occurs.length) mean.le
  · exact zero_le_one

theorem value_relativeLength_le (rise : low.Rise high) :
    value (relativeLength high.length high.meanLength) ≤
      value (relativeLength low.length low.meanLength) := by
  rw [value_relativeLength, value_relativeLength, rise.meanLength]
  split
  · next mean => exact div_le_div_of_nonneg_right rise.length mean.le
  · exact le_rfl

theorem value_damping (parameters : Bm25 ω) (length meanLength : ω) :
    value (parameters.damping length meanLength) = value parameters.k1 *
      (1 - value parameters.b + value parameters.b * value (relativeLength length meanLength)) := by
  rw [damping, value_mul, value_add, value_sub, value_mul, value_one]

theorem value_damping_nonneg (valid : parameters.validate = .ok ()) (occurs : statistics.Occurs) :
    0 ≤ value (parameters.damping statistics.length statistics.meanLength) := by
  obtain ⟨k1_nonneg, -, b_nonneg, b_le⟩ := (validate_eq_ok_iff parameters).mp valid
  have byLength := mul_nonneg b_nonneg (value_relativeLength_nonneg occurs)
  rw [value_damping]
  exact mul_nonneg k1_nonneg (by linarith)

theorem value_damping_le (valid : parameters.validate = .ok ()) (rise : low.Rise high) :
    value (parameters.damping high.length high.meanLength) ≤
      value (parameters.damping low.length low.meanLength) := by
  obtain ⟨k1_nonneg, -, b_nonneg, -⟩ := (validate_eq_ok_iff parameters).mp valid
  rw [value_damping, value_damping]
  exact mul_le_mul_of_nonneg_left
    (add_le_add_right (mul_le_mul_of_nonneg_left (value_relativeLength_le rise) b_nonneg) _) k1_nonneg

theorem value_frequency_add_damping_pos (valid : parameters.validate = .ok ())
    (occurs : statistics.Occurs) :
    0 < value (statistics.frequency +
      parameters.damping statistics.length statistics.meanLength) := by
  rw [value_add]
  linarith [occurs.frequency, value_damping_nonneg valid occurs]

theorem value_frequencyWeight (valid : parameters.validate = .ok ()) (occurs : statistics.Occurs) :
    value (parameters.frequencyWeight statistics.frequency statistics.length
        statistics.meanLength) =
      value statistics.frequency / (value statistics.frequency +
        value (parameters.damping statistics.length statistics.meanLength)) := by
  rw [frequencyWeight_eq, value_div _ _ (value_frequency_add_damping_pos valid occurs).ne', value_add]

theorem value_frequencyWeight_mem (valid : parameters.validate = .ok ())
    (occurs : statistics.Occurs) :
    value (parameters.frequencyWeight statistics.frequency statistics.length
      statistics.meanLength) ∈ Set.Ioc 0 1 := by
  have frequency_pos := zero_lt_one.trans_le occurs.frequency
  have damping_nonneg := value_damping_nonneg valid occurs
  rw [value_frequencyWeight valid occurs]
  exact ⟨div_pos frequency_pos (by linarith),
    div_le_one_of_le₀ (by linarith) (by linarith)⟩

theorem value_frequencyWeight_le (valid : parameters.validate = .ok ()) (lowOccurs : low.Occurs)
    (highOccurs : high.Occurs) (rise : low.Rise high) :
    value (parameters.frequencyWeight low.frequency low.length low.meanLength) ≤
      value (parameters.frequencyWeight high.frequency high.length high.meanLength) := by
  rw [value_frequencyWeight valid lowOccurs, value_frequencyWeight valid highOccurs]
  exact share_le_share (zero_lt_one.trans_le lowOccurs.frequency) rise.frequency
    (value_damping_nonneg valid highOccurs) (value_damping_le valid rise)

/-! ## Occurrences in the query -/

theorem value_k3_add_queryFrequency_pos (valid : parameters.validate = .ok ())
    (occurs : statistics.Occurs) : 0 < value (parameters.k3 + statistics.queryFrequency) := by
  obtain ⟨-, k3_nonneg, -⟩ := (validate_eq_ok_iff parameters).mp valid
  rw [value_add]
  linarith [occurs.queryFrequency]

theorem value_queryWeight (valid : parameters.validate = .ok ()) (occurs : statistics.Occurs) :
    value (parameters.queryWeight statistics.queryFrequency) =
      (value parameters.k3 + 1) * (value statistics.queryFrequency /
        (value statistics.queryFrequency + value parameters.k3)) := by
  rw [queryWeight, value_div _ _ (value_k3_add_queryFrequency_pos valid occurs).ne', value_mul,
    value_add, value_add, value_one, mul_div_assoc, add_comm (value statistics.queryFrequency)]

theorem value_queryWeight_mem (valid : parameters.validate = .ok ()) (occurs : statistics.Occurs) :
    value (parameters.queryWeight statistics.queryFrequency) ∈
      Set.Icc 1 (value parameters.k3 + 1) := by
  obtain ⟨-, k3_nonneg, -⟩ := (validate_eq_ok_iff parameters).mp valid
  have queryFrequency_ge := occurs.queryFrequency
  have sum_pos : 0 < value statistics.queryFrequency + value parameters.k3 := by linarith
  have grows : value parameters.k3 * 1 ≤ value parameters.k3 * value statistics.queryFrequency :=
    mul_le_mul_of_nonneg_left queryFrequency_ge k3_nonneg
  rw [value_queryWeight valid occurs]
  constructor
  · rw [← mul_div_assoc, le_div_iff₀ sum_pos]
    linarith
  · exact mul_le_of_le_one_right (by linarith) (div_le_one_of_le₀ (by linarith) sum_pos.le)

theorem value_queryWeight_le (valid : parameters.validate = .ok ()) (lowOccurs : low.Occurs)
    (highOccurs : high.Occurs) (rise : low.Rise high) :
    value (parameters.queryWeight low.queryFrequency) ≤
      value (parameters.queryWeight high.queryFrequency) := by
  obtain ⟨-, k3_nonneg, -⟩ := (validate_eq_ok_iff parameters).mp valid
  rw [value_queryWeight valid lowOccurs, value_queryWeight valid highOccurs]
  exact mul_le_mul_of_nonneg_left
    (share_le_share (zero_lt_one.trans_le lowOccurs.queryFrequency) rise.queryFrequency k3_nonneg
      le_rfl) (by linarith)

/-! ## The score -/

/-- The score of a term divides by nothing that is zero, and its logarithm is that of a positive
number. -/
structure IsDefinedAt (parameters : Bm25 ω) (statistics : Bm25Statistics ω) : Prop where
  odds_denominator : value (statistics.documentFrequency + 1 / Arithmetic.ofNat 2) ≠ 0
  odds_pos : 0 < value (odds statistics.documents statistics.documentFrequency)
  relativeLength_denominator : 0 < statistics.meanLength → value statistics.meanLength ≠ 0
  frequencyWeight_denominator :
    value (statistics.frequency + parameters.damping statistics.length statistics.meanLength) ≠ 0
  queryWeight_denominator : value (parameters.k3 + statistics.queryFrequency) ≠ 0

theorem isDefinedAt_of_occurs (valid : parameters.validate = .ok ()) (occurs : statistics.Occurs) :
    parameters.IsDefinedAt statistics where
  odds_denominator := (value_documentFrequency_add_half_pos occurs).ne'
  odds_pos := value_odds_pos occurs
  relativeLength_denominator positive := by
    rw [lt_iff, value_zero] at positive
    exact positive.ne'
  frequencyWeight_denominator := (value_frequency_add_damping_pos valid occurs).ne'
  queryWeight_denominator := (value_k3_add_queryFrequency_pos valid occurs).ne'

/-- The weights of a term that occurs are defined and bounded, and its score is not negative and does not
fall where the statistics rise. -/
theorem termScore_rises (rises : LogarithmRises ω) (valid : parameters.validate = .ok ())
    (occurs : statistics.Occurs) :
    parameters.IsDefinedAt statistics ∧
      value (parameters.frequencyWeight statistics.frequency statistics.length
        statistics.meanLength) ∈ Set.Ioc 0 1 ∧
      value (parameters.queryWeight statistics.queryFrequency) ∈
        Set.Icc 1 (value parameters.k3 + 1) ∧
      0 ≤ value (parameters.termScore statistics) ∧
      ∀ better : Bm25Statistics ω, better.Occurs → statistics.Rise better →
        value (parameters.termScore statistics) ≤ value (parameters.termScore better) := by
  have rarity_nonneg (documents documentFrequency : ω) :
      0 ≤ value (rarity documents documentFrequency) := by
    rw [value_rarity]
    exact le_max_right _ 0
  have frequencyWeight_mem := value_frequencyWeight_mem valid occurs
  have queryWeight_mem := value_queryWeight_mem valid occurs
  have queryWeight_nonneg := zero_le_one.trans queryWeight_mem.1
  refine ⟨isDefinedAt_of_occurs valid occurs, frequencyWeight_mem, queryWeight_mem, ?_,
    fun better betterOccurs rise => ?_⟩
  · rw [termScore, value_mul, value_mul]
    exact mul_nonneg (mul_nonneg (rarity_nonneg _ _) frequencyWeight_mem.1.le) queryWeight_nonneg
  · rw [termScore, termScore, value_mul, value_mul, value_mul, value_mul]
    have better_nonneg := (value_frequencyWeight_mem valid betterOccurs).1.le
    exact mul_le_mul
      (mul_le_mul (value_rarity_le rises occurs betterOccurs rise)
        (value_frequencyWeight_le valid occurs betterOccurs rise) frequencyWeight_mem.1.le
        (rarity_nonneg _ _))
      (value_queryWeight_le valid occurs betterOccurs rise) queryWeight_nonneg
      (mul_nonneg (rarity_nonneg _ _) better_nonneg)

/-- A term of two of four documents, and a rarer one that occurs twice in a shorter document. -/
theorem termScore_rises_twice :
    let parameters : Bm25 RealNumber := ⟨⟨6 / 5⟩, ⟨3 / 4⟩, ⟨2⟩⟩
    let once : Bm25Statistics RealNumber := ⟨⟨1⟩, ⟨2⟩, ⟨4⟩, ⟨3⟩, ⟨2⟩, ⟨1⟩⟩
    let twice : Bm25Statistics RealNumber := ⟨⟨2⟩, ⟨1⟩, ⟨4⟩, ⟨1⟩, ⟨2⟩, ⟨3⟩⟩
    LogarithmRises RealNumber ∧ parameters.validate = .ok () ∧ once.Occurs ∧ twice.Occurs ∧
      once.Rise twice ∧ parameters.IsDefinedAt once ∧
      value (parameters.termScore once) ≤ value (parameters.termScore twice) := by
  intro parameters once twice
  have valid : parameters.validate = .ok () := by
    rw [validate_eq_ok_iff]
    norm_num [parameters]
  have onceOccurs : once.Occurs := by
    constructor <;> norm_num [once]
  have twiceOccurs : twice.Occurs := by
    constructor <;> norm_num [twice]
  have rise : once.Rise twice := by
    constructor <;> norm_num [once, twice]
  obtain ⟨defined, -, -, -, greater⟩ := termScore_rises RealNumber.logarithmRises valid onceOccurs
  exact ⟨RealNumber.logarithmRises, valid, onceOccurs, twiceOccurs, rise, defined,
    greater twice twiceOccurs rise⟩

end Bm25

end Retrieval
