import Retrieval.Number.Arithmetic
import Retrieval.Posting
import Retrieval.Sorting.Quick

/-!
# Rankings

A ranking is a list of scored documents. Sorted, it has the greater scores first, and among equal
scores the smaller document numbers. An undefined score counts as equal to all others, so that the
order may contradict itself; then the outcome depends on which documents the sort compares.
-/

namespace Retrieval

/-- A document with its score. -/
structure Scored (ω : Type) where
  /-- The document. -/
  document : DocumentId
  /-- Its score. -/
  score : ω
deriving Repr

/-- Scored documents in some order. -/
abbrev Ranking (ω : Type) := List (Scored ω)

namespace Scored

variable {ω : Type} [Arithmetic ω]

/-- The first document is ranked before the second one. Scores that cannot be compared count as
equal. -/
def precedes (left right : Scored ω) : Bool :=
  if right.score < left.score then true
  else if left.score < right.score then false
  else left.document < right.document

end Scored

namespace Ranking

variable {ω : Type} [Arithmetic ω]

/-- All scores are defined. -/
def isDefined (ranking : Ranking ω) : Bool :=
  ranking.all fun scored => scored.score ≤ scored.score

/-- The ranking with the greater scores first, and the smaller document numbers first among equal
scores. -/
def sort (ranking : Ranking ω) : Ranking ω :=
  if ranking.isDefined then ranking.mergeSort fun left right => !right.precedes left
  else Sorting.sort Scored.precedes ranking

/-- Sorting keeps all documents with their scores. -/
theorem sort_perm (ranking : Ranking ω) : ranking.sort.Perm ranking := by
  unfold sort
  split
  · exact List.mergeSort_perm _ _
  · exact Sorting.sort_perm _ _

end Ranking

end Retrieval
