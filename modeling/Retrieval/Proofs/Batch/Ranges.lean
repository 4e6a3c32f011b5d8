import Retrieval.Batch
import Retrieval.Proofs.Batch.Files
import Retrieval.Proofs.Feedback.Weights
import Retrieval.Proofs.Number.Order

/-!
# The ranges of accepted parameters

Whatever a parameter file holds, the numbers of accepted parameters lie in their ranges, with one
exception: a number without an upper bound may be undefined, since it is refused only for being less
than zero, and an undefined number is not less than anything. A fraction is compared with both ends of
the unit interval, so that it is always defined. All refusals are those of settings.
-/

namespace Retrieval

theorem Number.nonneg_of_not_neg {number : Float} (notNegative : ¬ number < 0)
    (isDefined : number ≤ number) : 0 ≤ number := by
  have known := unpack_ne_of_defined isDefined
  rw [lt_iff] at notNegative
  rw [le_iff]
  change ¬ Float.Model.UnpackedFloat.lt _ (.zero .positive) = true at notNegative
  change Float.Model.UnpackedFloat.le (.zero .positive) _ = true
  generalize number.toModel.unpack = value at known notNegative ⊢
  rcases value with (_ | _) | _ | _ | ⟨_ | _, _, _, _⟩ <;> first | contradiction | rfl

section Ranges

variable {ω : Type} [Arithmetic ω]

/-- The number is not negative, if it is defined at all. -/
def IsMass (number : ω) : Prop :=
  number ≤ number → 0 ≤ number

/-- The number lies in the unit interval. -/
def IsShare (number : ω) : Prop :=
  0 ≤ number ∧ number ≤ 1

/-- The parameters lie in their ranges. -/
structure Bm25.InRange (parameters : Bm25 ω) : Prop where
  k1 : IsMass parameters.k1
  k3 : IsMass parameters.k3
  b : IsShare parameters.b

/-- The parameters lie in their ranges. -/
structure Indri.InRange (parameters : Indri ω) : Prop where
  lambda : IsShare parameters.lambda
  mu : IsMass parameters.mu

/-- The parameters of the model, if it has any, lie in their ranges. -/
def Model.InRange : Model ω → Prop
  | .unrankedBoolean => True
  | .rankedBoolean => True
  | .bm25 parameters => parameters.InRange
  | .indri parameters => parameters.InRange

/-- The settings of feedback lie in their ranges. -/
structure Feedback.InRange (feedback : Feedback ω) : Prop where
  documents : 1 ≤ feedback.documents
  terms : 1 ≤ feedback.terms
  mu : IsMass feedback.mu
  queryWeight : IsShare feedback.queryWeight

/-- The settings of a run lie in their ranges, and feedback goes with Indri. -/
structure Parameters.InRange (parameters : Parameters ω) : Prop where
  model : parameters.model.InRange
  feedback : ∀ feedback, parameters.feedback = some feedback →
    (∃ indri, parameters.model = .indri indri) ∧ feedback.InRange

end Ranges

/-! ## What is accepted -/

theorem isMass_of_not_neg {number : Float} (notNegative : ¬ number < 0) : IsMass number :=
  Number.nonneg_of_not_neg notNegative

theorem isShare_of_isFraction {number : Float} (isFraction : Arithmetic.isFraction number = true) :
    IsShare number := by
  rwa [Arithmetic.isFraction, Bool.and_eq_true, decide_eq_true_iff, decide_eq_true_iff] at isFraction

theorem Bm25.inRange_of_validate {parameters : Bm25 Float} (valid : parameters.validate = .ok ()) :
    parameters.InRange := by
  rw [validate] at valid
  split at valid
  · cases valid
  · next notNegative =>
      rw [Bool.or_eq_true, not_or, decide_eq_true_iff, decide_eq_true_iff] at notNegative
      split at valid
      · cases valid
      · next fraction =>
          exact ⟨isMass_of_not_neg notNegative.1, isMass_of_not_neg notNegative.2,
            isShare_of_isFraction (by simpa using fraction)⟩

theorem Indri.inRange_of_validate {parameters : Indri Float} (valid : parameters.validate = .ok ()) :
    parameters.InRange := by
  rw [validate] at valid
  split at valid
  · cases valid
  · next fraction =>
      split at valid
      · cases valid
      · next notNegative =>
          exact ⟨isShare_of_isFraction (by simpa using fraction), isMass_of_not_neg notNegative⟩

theorem Feedback.inRange_of_validate {feedback : Feedback Float} (valid : feedback.validate = .ok ()) :
    feedback.InRange := by
  obtain ⟨⟨documents, terms⟩, notNegative, fraction⟩ := validate_eq_ok_iff.mp valid
  exact ⟨Nat.one_le_iff_ne_zero.mpr documents, Nat.one_le_iff_ne_zero.mpr terms,
    isMass_of_not_neg notNegative, isShare_of_isFraction fraction⟩

/-- A model that is chosen by its name has been checked. -/
theorem Model.inRange_of_ofName {name : String} {bm25 : Bm25 Float} {indri : Indri Float}
    {model : Model Float} (chosen : ofName name bm25 indri = .ok model) : model.InRange := by
  rw [ofName] at chosen
  split at chosen
  · obtain rfl := Except.ok.inj chosen
    trivial
  · obtain rfl := Except.ok.inj chosen
    trivial
  · obtain ⟨_, valid, rfl⟩ := map_eq_ok_iff.mp chosen
    exact Bm25.inRange_of_validate valid
  · obtain ⟨_, valid, rfl⟩ := map_eq_ok_iff.mp chosen
    exact Indri.inRange_of_validate valid
  · cases chosen

namespace Parameters

variable {usual : UsualParameters Float} {settings : Settings} {parameters : Parameters Float}

/-- Feedback that is asked for goes with Indri and has been checked. -/
theorem inRange_of_feedbackOf {model : Model Float} {feedback : Feedback Float}
    (given : feedbackOf settings model = .ok (some feedback)) :
    (∃ indri, model = .indri indri) ∧ feedback.InRange := by
  simp only [feedbackOf, bind_eq_ok_iff] at given
  obtain ⟨on, -, given⟩ := given
  split at given
  · cases model with
    | indri indri =>
        simp only [bind_eq_ok_iff] at given
        obtain ⟨_, -, _, -, _, -, _, -, _, valid, same⟩ := given
        obtain rfl := Option.some.inj (Except.ok.inj same)
        exact ⟨⟨indri, rfl⟩, Feedback.inRange_of_validate valid⟩
    | unrankedBoolean | rankedBoolean | bm25 => cases given
  · cases given

theorem inRange_of_ofSettings (accepted : ofSettings usual settings = .ok parameters) :
    parameters.InRange := by
  simp only [ofSettings, bind_eq_ok_iff] at accepted
  obtain ⟨_, -, _, -, _, -, _, -, _, -, _, -, model, chosen, feedback, given, _, -, _, -, _, -,
    same⟩ := accepted
  obtain rfl := Except.ok.inj same
  refine ⟨Model.inRange_of_ofName chosen, ?_⟩
  rintro feedback rfl
  exact inRange_of_feedbackOf given

end Parameters

namespace Batch

/-- The parameters of a file lie in their ranges as far as they are defined, and a file whose parameters
are refused or that cannot be read is refused for its settings. -/
theorem loadParameters_inRange (usual : UsualParameters Float) :
    (∀ text parameters, Parameters.ofText usual text = .ok parameters → parameters.InRange) ∧
      ∀ (tree : FileTree) path cause, tree.ask (loadParameters usual path) = .error cause →
        ∃ refusal, cause = .config refusal := by
  constructor
  · intro text parameters accepted
    obtain ⟨settings, -, given⟩ := bind_eq_ok_iff.mp accepted
    exact Parameters.inRange_of_ofSettings given
  · intro tree path cause failed
    rw [loadParameters, (FileTree.reading_readText path).ask_bind] at failed
    split at failed
    · next unread => exact ⟨_, (Except.error.inj failed).symm⟩
    · next text read =>
        split at failed
        · cases failed
        · next refusal refused => exact ⟨refusal, (Except.error.inj failed).symm⟩

end Batch

/-! ## Undefined parameters -/

namespace Parameters

/-- Settings for BM25 with an undefined saturation. -/
def undefinedSaturation : String :=
  "indexPath=i\nqueryFilePath=q\ntrecEvalOutputPath=o\nretrievalAlgorithm=BM25\nBM25:k_1=nan\n"

/-- An undefined saturation is accepted. -/
theorem ofText_undefinedSaturation : ∃ parameters bm25,
    ofText .float undefinedSaturation = .ok parameters ∧ parameters.model = .bm25 bm25 ∧
      ¬ 0 ≤ bm25.k1 := by
  have accepted : ((ofText .float undefinedSaturation).toOption.bind fun parameters =>
      match parameters.model with
      | .bm25 bm25 => some (decide (0 ≤ bm25.k1))
      | _ => none) = some false := by decide +kernel
  obtain ⟨parameters, isOk, undefined⟩ := Option.bind_eq_some_iff.mp accepted
  refine ⟨parameters, ?_⟩
  split at undefined
  · next bm25 isBm25 =>
      refine ⟨bm25, ?_, isBm25, by simpa using undefined⟩
      cases read : ofText .float undefinedSaturation with
      | error refusal => rw [read] at isOk; cases isOk
      | ok other => rw [read] at isOk; rw [Option.some.inj isOk]
  · cases undefined

end Parameters

end Retrieval
