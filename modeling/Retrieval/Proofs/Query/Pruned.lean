import Retrieval.Proofs.Query.WellFormed

/-!
# Queries that have been read and pruned

What remains of a query after pruning has operands under every operator. Its scoring operators stand over
scoring operators and over the scores of lists; those lists are the highest places in the query that have
an inverted list.
-/

namespace Retrieval

namespace Query

variable {ω : Type}

mutual

/-- The scoring operators of a query. -/
def scoringOperators : Query ω → List ScoringOperator
  | .term .. => []
  | .apply (.list _) _ _ => []
  | .apply (.scoring operator) operands _ => operator :: scoringOperatorsOfEach operands

/-- The scoring operators of several queries. -/
def scoringOperatorsOfEach : List (Query ω) → List ScoringOperator
  | [] => []
  | query :: later => query.scoringOperators ++ scoringOperatorsOfEach later

end

mutual

/-- The terms and list operators of a query that are scored. -/
def scoredLists : Query ω → List (Query ω)
  | .term text field => [.term text field]
  | .apply (.list operator) operands weights => [.apply (.list operator) operands weights]
  | .apply (.scoring _) operands _ => scoredListsOfEach operands

/-- The terms and list operators of several queries that are scored. -/
def scoredListsOfEach : List (Query ω) → List (Query ω)
  | [] => []
  | query :: later => query.scoredLists ++ scoredListsOfEach later

end

theorem mem_scoringOperatorsOfEach {queries : List (Query ω)} {operator : ScoringOperator} :
    operator ∈ scoringOperatorsOfEach queries ↔ ∃ query ∈ queries, operator ∈ query.scoringOperators := by
  induction queries with
  | nil => simp [scoringOperatorsOfEach]
  | cons query later induction => simp [scoringOperatorsOfEach, induction]

theorem mem_scoredListsOfEach {queries : List (Query ω)} {list : Query ω} :
    list ∈ scoredListsOfEach queries ↔ ∃ query ∈ queries, list ∈ query.scoredLists := by
  induction queries with
  | nil => simp [scoredListsOfEach]
  | cons query later induction => simp [scoredListsOfEach, induction]

theorem scoredLists_of_isList {query : Query ω} (isList : query.isList = true) :
    query.scoredLists = [query] := by
  cases query with
  | term => rfl
  | apply operator operands weights =>
      cases operator with
      | list operator => rfl
      | scoring operator => simp [Query.isList, Operator.isList] at isList

variable [Arithmetic ω]

/-- Every scoring operator has operands, which are scoring operators again, and weights that are not
negative; the lists are scored one by one. -/
inductive WellBuilt : Query ω → Prop
  /-- The score of a list. -/
  | score {list : Query ω} (isList : list.isList = true) : WellBuilt list.score
  /-- A scoring operator with a name. -/
  | apply {operator : ScoringOperator} {operands : List (Query ω)} {weights : List ω}
      (named : operator ≠ .score ∧ operator ≠ .not) (nonempty : operands ≠ [])
      (each : ∀ operand ∈ operands, WellBuilt operand)
      (weighs : ∀ weight ∈ weights, weight = 1 ∨ 0 ≤ weight) :
      WellBuilt (.apply (.scoring operator) operands weights)

theorem ne_score_of_isNamed {operator : ScoringOperator} {word : String}
    (named : Operator.IsNamed word (.scoring operator)) : operator ≠ .score ∧ operator ≠ .not := by
  constructor <;> rintro rfl <;> exact named.elim

/-- A well-formed scoring operator with operands throughout is well built. -/
theorem WellFormed.wellBuilt {analyzer : Analyzer} {query : Query ω} (wellFormed : query.WellFormed analyzer)
    (complete : ∀ part ∈ query.parts, part.IsComplete) (scores : query.isList = false) :
    query.WellBuilt := by
  induction wellFormed with
  | term field found => cases scores
  | score isList inside induction => exact .score isList
  | @apply operator items named weighs kinds each induction =>
      cases operator with
      | list operator => cases scores
      | scoring operator =>
          refine .apply (ne_score_of_isNamed named) (complete _ (mem_parts_self _)).1 ?_ ?_
          · refine List.forall_mem_map.mpr fun item member => ?_
            refine induction item member (fun part inside => complete part ?_) (kinds item member)
            exact mem_parts_apply.mpr (.inr ⟨item.2, List.mem_map_of_mem member, inside⟩)
          · refine List.forall_mem_map.mpr fun item member => ?_
            have weight := weighs item member
            rw [Operator.Weighs] at weight
            split at weight
            · exact .inr weight.2
            · exact .inl weight

/-- The plan for a text is well built. -/
theorem wellBuilt_of_plan {engine : Engine ω} {text : String} {query : Query ω}
    (planned : engine.plan text = .ok (some query)) : query.WellBuilt := by
  obtain ⟨wellFormed, complete⟩ := wellFormed_of_plan planned
  exact wellFormed.wellBuilt complete (isList_of_plan planned)

end Query

end Retrieval
