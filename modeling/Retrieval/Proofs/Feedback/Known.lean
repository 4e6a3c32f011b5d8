import Retrieval.Proofs.Evaluation.Failures
import Retrieval.Row

/-!
# Rankings of known documents

The documents of a ranking that comes from an index, be it the answer to a query or read from a ranking
file, are documents of that index. Names, lengths and term vectors are asked for these documents only,
so that the index always has an answer: a question fails only if a text is no query or if the model has
no scores for an operator.
-/

namespace Retrieval

variable {ω : Type}

/-- All documents of the ranking are documents of the index. -/
def Ranking.IsKnown (index : Index) (ranking : Ranking ω) : Prop :=
  ∀ scored ∈ ranking, scored.document < index.documentCount

variable [Arithmetic ω]

/-- The ranking can be written in rows. -/
def Ranking.IsListed (index : Index) (ranking : Ranking ω) : Prop :=
  ∀ query tag limit, ∃ rows, ranking.rows index query tag limit = .ok rows

namespace Ranking.IsKnown

variable {index : Index} {ranking : Ranking ω}

omit [Arithmetic ω] in
theorem exists_document (known : ranking.IsKnown index) {scored : Scored ω}
    (member : scored ∈ ranking) : ∃ document, index.document scored.document = .ok document := by
  have bounded : scored.document < index.documents.size := known scored member
  exact ⟨index.documents[scored.document], by rw [Index.document, Array.getElem?_eq_getElem bounded]⟩

omit [Arithmetic ω] in
theorem take (known : ranking.IsKnown index) (count : Nat) :
    Ranking.IsKnown index (ranking.take count) :=
  fun scored member => known scored (List.mem_of_mem_take member)

/-- Sorting keeps the documents. -/
theorem sort (known : ranking.IsKnown index) : ranking.sort.IsKnown index :=
  fun scored member => known scored (ranking.sort_perm.subset member)

/-- The documents have names, so the rows can be written. -/
theorem isListed (known : ranking.IsKnown index) : ranking.IsListed index := by
  intro query tag limit
  rw [Ranking.rows]
  split
  · exact ⟨_, rfl⟩
  · refine exists_answers fun item member => ?_
    obtain ⟨document, found⟩ :=
      (known.take limit).exists_document (List.fst_mem_of_mem_zipIdx member)
    dsimp only
    rw [Index.identifier, found]
    exact ⟨_, rfl⟩

/-- The documents have term vectors, so terms can be added. -/
theorem exists_expansionTerms (known : ranking.IsKnown index) (feedback : Feedback ω) :
    ∃ terms, feedback.expansionTerms index ranking = .ok terms := by
  rw [Feedback.expansionTerms]
  split
  · exact ⟨[], rfl⟩
  · obtain ⟨relevant, read⟩ : ∃ relevant, feedback.relevant index ranking = .ok relevant := by
      refine exists_answers fun scored member => ?_
      obtain ⟨document, found⟩ := (known.take feedback.documents).exists_document member
      rw [Index.termVector, found]
      exact ⟨_, rfl⟩
    rw [read]
    exact ⟨_, rfl⟩

end Ranking.IsKnown

/-! ## Where rankings come from -/

namespace Query

end Query

namespace Engine

variable {engine : Engine ω} {text : String}

end Engine

/-! ## Ranking files -/

namespace Index

variable {documents : List Document} {stopwords : List String}

end Index

namespace FirstRankings

variable {documents : List Document} {stopwords : List String}

end FirstRankings

/-! ## Questions to an engine -/

namespace Engine

end Engine

end Retrieval
