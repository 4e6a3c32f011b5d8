import Retrieval.Proofs.Evaluation.Probabilities
import Retrieval.Proofs.Evaluation.Scan

/-!
# How an evaluation fails

All documents that an evaluation meets are documents of the index, so the index has an answer to every
question about them, and every sum is scored after it has been opened. A query that has been read fails
only for an operator for which the model has no scores. The failure of an operator is that of an operand
or its own, so this is seen by recursion over the query.
-/

namespace Retrieval

/-- The cause is that the model has no scores for an operator. -/
def Model.Lacks {ω : Type} [Arithmetic ω] (model : Model ω) (cause : Error) : Prop :=
  ∃ operator : ScoringOperator, cause = .unsupported operator.name model.name

namespace Query

variable {ω : Type} [Arithmetic ω] {index : Index} (model : Model ω) {document : DocumentId}

theorem smoothedAt_fails (bounded : document < index.documentCount) (parameters : Indri ω)
    (frequency : Nat) (query : Query ω) :
    FailsBy model.Lacks (query.smoothedAt index parameters document frequency) := by
  rw [smoothedAt, Index.fieldLength_eq _ bounded]
  exact .ok _

theorem listScoreAt_fails (bounded : document < index.documentCount) (query : Query ω) :
    FailsBy model.Lacks (query.listScoreAt index model document) := by
  cases model with
  | unrankedBoolean => exact .ok _
  | rankedBoolean => exact .ok _
  | bm25 parameters => exact .error ⟨.score, rfl⟩
  | indri parameters => exact smoothedAt_fails _ bounded parameters _ query

theorem termScoreAt_fails (bounded : document < index.documentCount) (parameters : Bm25 ω)
    (queryFrequency : Nat) (query : Query ω) :
    FailsBy model.Lacks (query.termScoreAt index parameters document queryFrequency) := by
  rw [termScoreAt, Index.fieldLength_eq _ bounded]
  exact .ok _

mutual

theorem defaultAt_fails (bounded : document < index.documentCount) :
    (query : Query ω) → FailsBy model.Lacks (query.defaultAt index model document)
  | .term .. => by
      cases model with
      | indri parameters => exact smoothedAt_fails _ bounded parameters _ _
      | _ => exact .ok _
  | .apply (.list _) .. => by
      cases model with
      | indri parameters => exact smoothedAt_fails _ bounded parameters _ _
      | _ => exact .ok _
  | .apply (.scoring operator) operands weights => by
      have defaults := defaultsAt_fails bounded operands
      cases model with
      | indri parameters =>
          cases operator with
          | score =>
              cases operands with
              | nil => exact .ok _
              | cons first others => exact smoothedAt_fails _ bounded parameters _ _
          | not | sum => exact .ok _
          | and | or | wand | wsum => exact defaults.map _
      | _ => exact .ok _

theorem defaultsAt_fails (bounded : document < index.documentCount) :
    (queries : List (Query ω)) → FailsBy model.Lacks (defaultsAt index model document queries)
  | [] => .ok _
  | query :: later => by
      rw [defaultsAt]
      exact (defaultAt_fails bounded query).bind fun _ _ =>
        (defaultsAt_fails bounded later).bind fun _ _ => .ok _

end

/-- The answers that go with the operands are failures of the model, or none. -/
def EachFails (model : Model ω) (operands : List (Query ω × Except Error ω)) : Prop :=
  ∀ operand ∈ operands, FailsBy model.Lacks operand.2

variable {operands : List (Query ω × Except Error ω)}

theorem presentAt_fails (soft : Bool) (each : EachFails model operands) :
    FailsBy model.Lacks (presentAt index soft document operands) :=
  .mapM fun operand member => each operand (List.mem_filter.mp member).1

theorem presentOrDefaultAt_fails (bounded : document < index.documentCount)
    (each : EachFails model operands) :
    FailsBy model.Lacks (presentOrDefaultAt index model document operands) := by
  refine .mapM fun operand member => ?_
  dsimp only
  split
  · exact each operand member
  · exact defaultAt_fails model bounded operand.1

theorem addendsAt_fails (bounded : document < index.documentCount) (soft : Bool)
    (parameters : Bm25 ω) (each : EachFails model operands) :
    FailsBy model.Lacks (addendsAt index soft parameters document operands) := by
  refine .map _ (.mapM fun counted member => ?_)
  have among := each counted.1 (List.of_mem_zip (List.mem_filter.mp member).1).1
  dsimp only
  rw [addendAt]
  split
  · exact among.map _
  · split
    · exact .ok _
    · exact (termScoreAt_fails model bounded parameters _ _).map _

theorem combinedAt_fails (bounded : document < index.documentCount) (operator : ScoringOperator)
    (weights : List ω) (each : EachFails model operands) :
    FailsBy model.Lacks (combinedAt index model document operator weights operands) := by
  have all : FailsBy model.Lacks (operands.mapM Prod.snd) := .mapM each
  have present : FailsBy model.Lacks (presentAt index model.isSoft document operands) :=
    presentAt_fails model _ each
  have both := presentOrDefaultAt_fails model bounded each
  rw [combinedAt.eq_def]
  split
  · exact .ok _
  · split
    · exact .ok _
    · exact listScoreAt_fails model bounded _
  · exact .ok _
  · exact .ok _
  · exact all.map _
  · exact present.map _
  · exact present.map _
  · exact (addendsAt_fails _ bounded _ _ each).map _
  · exact .error ⟨_, rfl⟩
  · exact both.map _
  · exact .error ⟨_, rfl⟩

mutual

theorem scoreAt_fails (bounded : document < index.documentCount) :
    (query : Query ω) → FailsBy model.Lacks (query.scoreAt index model document)
  | .term .. => listScoreAt_fails model bounded _
  | .apply (.list _) .. => listScoreAt_fails model bounded _
  | .apply (.scoring operator) operands weights =>
      combinedAt_fails model bounded operator weights (scoresAt_fail bounded operands)

theorem scoresAt_fail (bounded : document < index.documentCount) :
    (queries : List (Query ω)) → EachFails model (scoresAt index model document queries)
  | [] => by simp [EachFails, scoresAt]
  | query :: later => List.forall_mem_cons.mpr ⟨scoreAt_fails bounded query, scoresAt_fail bounded later⟩

end

theorem scan_fails (wellFormed : index.WellFormed) (query : Query ω) :
    FailsBy model.Lacks (query.scan index model) := by
  refine .map _ (.mapM fun document member => (scoreAt_fails model ?_ query).map _)
  exact lt_of_mem_documentsOn wellFormed ((Finset.mem_sort _).mp member)

end Query

namespace Engine

variable {ω : Type} [Arithmetic ω] {engine : Engine ω} {text : String}

/-- The search for a text that is a query fails only by what the model lacks. -/
theorem search_fails (wellFormed : engine.index.WellFormed) {query : Query ω}
    (parsed : engine.parse text = .ok query) :
    FailsBy engine.model.Lacks (engine.search text) := by
  have planned : engine.plan text = .ok query.prune := by rw [plan, parsed]
  have ascending : engine.index.Ascending := fun field term => (wellFormed field term).ascending
  rw [search, planned]
  change FailsBy _ (engine.evaluatePlan query.prune)
  cases pruned : query.prune with
  | none => exact .ok _
  | some kept =>
      have nonempty := Query.operands_ne_nil_of_prune (Query.isApply_of_parse parsed) pruned
      rw [evaluatePlan, evaluate_eq_scan ascending nonempty]
      exact Query.scan_fails engine.model wellFormed kept

/-- A run with feedback fails as its first search, the expansion or its last search does. -/
theorem searchWithFeedback_fails {feedback : Feedback ω} {first : Option (Ranking ω)}
    {kind : Error → Prop} (searched : FailsBy kind (engine.firstRanking text first))
    (expanded : ∀ ranking, engine.firstRanking text first = .ok ranking →
      FailsBy (fun cause => kind (.index cause)) (feedback.expansionTerms engine.index ranking))
    (again : ∀ ranking terms, engine.firstRanking text first = .ok ranking →
      feedback.expansionTerms engine.index ranking = .ok terms →
        FailsBy kind (engine.search
          (expandedQuery text (expansionQuery terms) feedback.queryWeight))) :
    FailsBy kind (engine.searchWithFeedback feedback text first) := by
  rw [searchWithFeedback_eq]
  refine searched.bind fun ranking isFirst => ?_
  split
  · next cause failed => exact .error (expanded ranking isFirst cause failed)
  · next terms found => exact (again ranking terms isFirst found).map _

end Engine

end Retrieval
