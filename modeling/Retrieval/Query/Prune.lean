import Retrieval.Query.Tree

/-!
# Pruning queries

Operators without operands match nothing. Pruning removes them from the inside outwards, so that an
operator that loses all its operands goes as well. The operands that remain keep their weights.
-/

namespace Retrieval.Query

variable {ω : Type} [Arithmetic ω]

/-- The operands that remain, each with its weight; an operand without a weight weighs one. -/
def keepOperands : List ω → List (Option (Query ω)) → List (ω × Query ω)
  | _, [] => []
  | weights, none :: operands => keepOperands weights.tail operands
  | weights, some operand :: operands =>
      (weights.headD 1, operand) :: keepOperands weights.tail operands

mutual

/-- The query without the operators that have no term below them. -/
def prune : Query ω → Option (Query ω)
  | .term text field => some (.term text field)
  | .apply operator operands weights =>
      match keepOperands weights (pruneEach operands) with
      | [] => none
      | kept => some (.apply operator (kept.map Prod.snd) (kept.map Prod.fst))

/-- Prunes several queries. -/
def pruneEach : List (Query ω) → List (Option (Query ω))
  | [] => []
  | query :: later => query.prune :: pruneEach later

end

theorem pruneEach_eq_map (queries : List (Query ω)) :
    pruneEach queries = queries.map prune := by
  induction queries with
  | nil => simp [pruneEach]
  | cons query later induction => simp [pruneEach, induction]

end Retrieval.Query
