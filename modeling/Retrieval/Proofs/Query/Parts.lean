import Mathlib.Data.List.Basic
import Retrieval.Query.Tree

/-!
# The parts of a query

A query is a tree, so what holds of all terms and passes from operands to operators holds of all queries.
Its parts are the queries at its places, from itself down to its terms.
-/

namespace Retrieval

namespace Query

variable {ω : Type}

mutual

/-- What holds of all terms, and of an operator where it holds of the operands, holds of all queries. -/
@[elab_as_elim]
theorem inductionOn {motive : Query ω → Prop} (query : Query ω)
    (term : ∀ text field, motive (.term text field))
    (apply : ∀ operator operands weights, (∀ operand ∈ operands, motive operand) →
      motive (.apply operator operands weights)) : motive query :=
  match query with
  | .term text field => term text field
  | .apply operator operands weights =>
      apply operator operands weights (forall_mem_of_step operands term apply)

theorem forall_mem_of_step {motive : Query ω → Prop} (queries : List (Query ω))
    (term : ∀ text field, motive (.term text field))
    (apply : ∀ operator operands weights, (∀ operand ∈ operands, motive operand) →
      motive (.apply operator operands weights)) : ∀ query ∈ queries, motive query :=
  match queries with
  | [] => by simp
  | query :: later =>
      List.forall_mem_cons.mpr
        ⟨inductionOn query term apply, forall_mem_of_step later term apply⟩

end

/-! ## Terms and parts -/

mutual

/-- The terms of a query with their fields, from left to right. -/
def terms : Query ω → List (String × Field)
  | .term text field => [(text, field)]
  | .apply _ operands _ => termsOfEach operands

/-- The terms of several queries. -/
def termsOfEach : List (Query ω) → List (String × Field)
  | [] => []
  | query :: later => query.terms ++ termsOfEach later

end

mutual

/-- The query and all queries below it. -/
def parts : Query ω → List (Query ω)
  | .term text field => [.term text field]
  | .apply operator operands weights =>
      .apply operator operands weights :: partsOfEach operands

/-- The queries and all queries below them. -/
def partsOfEach : List (Query ω) → List (Query ω)
  | [] => []
  | query :: later => query.parts ++ partsOfEach later

end

theorem termsOfEach_eq_flatMap (queries : List (Query ω)) :
    termsOfEach queries = queries.flatMap terms := by
  induction queries with
  | nil => simp [termsOfEach]
  | cons query later induction => simp [termsOfEach, induction]

theorem partsOfEach_eq_flatMap (queries : List (Query ω)) :
    partsOfEach queries = queries.flatMap parts := by
  induction queries with
  | nil => simp [partsOfEach]
  | cons query later induction => simp [partsOfEach, induction]

theorem terms_apply (operator : Operator) (operands : List (Query ω)) (weights : List ω) :
    (apply operator operands weights).terms = operands.flatMap terms := by
  rw [terms, termsOfEach_eq_flatMap]

/-- An operator has no terms if none of its operands does. -/
theorem terms_apply_eq_nil_iff {operator : Operator} {operands : List (Query ω)} {weights : List ω} :
    (apply operator operands weights).terms = [] ↔ ∀ operand ∈ operands, operand.terms = [] := by
  rw [terms_apply, List.flatMap_eq_nil_iff]

theorem mem_parts_apply {part : Query ω} {operator : Operator} {operands : List (Query ω)}
    {weights : List ω} :
    part ∈ (apply operator operands weights).parts ↔
      part = .apply operator operands weights ∨ ∃ operand ∈ operands, part ∈ operand.parts := by
  rw [parts, partsOfEach_eq_flatMap, List.mem_cons, List.mem_flatMap]

theorem mem_parts_self (query : Query ω) : query ∈ query.parts := by
  cases query with
  | term => simp [parts]
  | apply => exact mem_parts_apply.mpr (.inl rfl)

/-- If the query is an operator, it has operands, and a weight for each of them. -/
def IsComplete : Query ω → Prop
  | .term .. => True
  | .apply _ operands weights => operands ≠ [] ∧ weights.length = operands.length

/-- A query that is complete throughout has terms. -/
theorem terms_ne_nil {query : Query ω} (complete : ∀ part ∈ query.parts, part.IsComplete) :
    query.terms ≠ [] := by
  induction query using inductionOn with
  | term text field => simp [terms]
  | apply operator operands weights induction =>
      obtain ⟨nonempty, -⟩ := complete _ (mem_parts_self _)
      obtain ⟨operand, member⟩ := List.exists_mem_of_ne_nil _ nonempty
      rw [ne_eq, terms_apply_eq_nil_iff]
      intro none
      exact induction operand member
        (fun part inside => complete part (mem_parts_apply.mpr (.inr ⟨operand, member, inside⟩)))
        (none operand member)

end Query

end Retrieval
