import Retrieval.Field
import Retrieval.Operator
import Retrieval.Number.Arithmetic

/-!
# Query trees

A query is a tree of operators over terms. Every operator holds a list of weights beside its
operands; an operand without a weight of its own weighs one. The text of a tree shows weights only
where the operator is weighted, and it passes over the operators that score a single list.
-/

namespace Retrieval

/-- A query with weights in `ω`. -/
inductive Query (ω : Type) where
  /-- The occurrences of a term in a field. -/
  | term (text : String) (field : Field)
  /-- An operator with its operands and their weights, in parallel. -/
  | apply (operator : Operator) (operands : List (Query ω)) (weights : List ω)
deriving Repr

/-- The weight of an operand by its place. -/
def weightAt {ω : Type} [Arithmetic ω] (weights : List ω) (place : Nat) : ω :=
  weights.getD place 1

namespace Query

variable {ω : Type} [Arithmetic ω]

/-- The query has an inverted list of its own. -/
def isList : Query ω → Bool
  | .term .. => true
  | .apply operator .. => operator.isList

/-- The operands. -/
def operands : Query ω → List (Query ω)
  | .term .. => []
  | .apply _ operands _ => operands

/-- The score of the inverted list of a query. -/
def score (query : Query ω) : Query ω :=
  .apply (.scoring .score) [query] [1]

/-- The text of an operator's operands: each with its weight if the operator is weighted, all with
a space between them. -/
def writeOperands (operator : Operator) (weights : List ω) (operands : List String) : String :=
  " ".intercalate <| operands.mapIdx fun place operand =>
    if operator.isWeighted then Arithmetic.write (weightAt weights place) ++ " " ++ operand
    else operand

mutual

/-- The text of a query. -/
def write : Query ω → String
  | .term text field => text ++ "." ++ field.name
  | .apply operator operands weights =>
      match operator, writeEach operands with
      | .scoring .score, [] => "#score()"
      | .scoring .score, operand :: _ => operand
      | operator, operands =>
          operator.label ++ "(" ++ writeOperands operator weights operands ++ ")"

/-- The texts of several queries. -/
def writeEach : List (Query ω) → List String
  | [] => []
  | query :: later => query.write :: writeEach later

end

theorem writeEach_eq_map (queries : List (Query ω)) : writeEach queries = queries.map write := by
  induction queries with
  | nil => simp [writeEach]
  | cons query later induction => simp [writeEach, induction]

end Query

end Retrieval
