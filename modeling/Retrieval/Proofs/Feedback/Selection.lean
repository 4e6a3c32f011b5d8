import Retrieval.Proofs.Feedback.AddedTerms
import Retrieval.Proofs.Feedback.Strongest
import Retrieval.Proofs.Number.Order
import Retrieval.Proofs.Posting.Counts

/-!
# The choice of the added terms

The candidates for added terms are the distinct tokens of the bodies of the relevant documents that can
be written into a query, numbered in the order of their first occurrence. The numbers decide between equal
scores, so the shortlist chooses what sorting by descending score, which keeps the order among equal
scores, puts first. The numbers of tokens that cannot be written stay unused, which does not change the
order of the others; and the scores are rounded after the choice.
-/

namespace Retrieval

/-! ## Stable sorting -/

variable {log : Float → Float}

/-- Scored documents that are numbered in ascending order, each with a text. -/
structure Numbered (candidates : List (Scored (FloatWith log) × String)) : Prop where
  /-- The numbers ascend. -/
  ascending : candidates.Pairwise fun left right => left.1.document < right.1.document
  /-- The scores are defined. -/
  defined : ∀ candidate ∈ candidates, candidate.1.score ≤ candidate.1.score

namespace Numbered

variable {candidates : List (Scored (FloatWith log) × String)}

theorem eq_of_document_eq (numbered : Numbered candidates)
    {left right : Scored (FloatWith log) × String} (leftMember : left ∈ candidates)
    (rightMember : right ∈ candidates) (same : left.1.document = right.1.document) : left = right := by
  have distinct : (candidates.map fun candidate => candidate.1.document).Nodup :=
    List.pairwise_map.mpr (numbered.ascending.imp Nat.ne_of_lt)
  exact List.inj_on_of_nodup_map distinct leftMember rightMember same

/-- A candidate is found by its number. -/
theorem find?_eq (numbered : Numbered candidates) {candidate : Scored (FloatWith log) × String}
    (member : candidate ∈ candidates) :
    candidates.find? (fun other => other.1.document = candidate.1.document) = some candidate := by
  cases found : candidates.find? fun other => other.1.document = candidate.1.document with
  | none => simpa using List.find?_eq_none.mp found candidate member
  | some other =>
      have same : other.1.document = candidate.1.document := by simpa using List.find?_some found
      rw [numbered.eq_of_document_eq (List.mem_of_find?_eq_some found) member same]

end Numbered

/-! ## Bodies of the collection -/

/-- The tokens of the body of a document, none if there is no such document. -/
def bodyOf (documents : List Document) (number : DocumentId) : List String :=
  (documents[number]?).elim [] fun document => document.fields.get .body

/-- The tokens of all bodies. -/
def bodyTokens (documents : List Document) : List String :=
  documents.flatMap fun document => document.fields.get .body

section Bodies

variable {documents : List Document} {stopwords : List String}

theorem tokenCount_body :
    (Index.ofDocuments documents stopwords).tokenCount .body = (bodyTokens documents).length :=
  Index.tokenCount_eq_length documents stopwords .body

theorem collectionFrequency_body (term : String) :
    ((Index.ofDocuments documents stopwords).invertedList .body term).collectionFrequency =
      (bodyTokens documents).count term :=
  Index.collectionFrequency_eq_count documents stopwords .body term

end Bodies

namespace Feedback

variable {ω : Type} [Arithmetic ω]

/-- The score of a ranked document times how much the term stands out in the collection and how likely
the document is to produce it, smoothed by the collection. -/
def addend (feedback : Feedback ω) (documents : List Document) (term : String) (scored : Scored ω) :
    ω :=
  let tokens : ω := Arithmetic.ofNat (bodyTokens documents).length
  let frequency : ω := Arithmetic.ofNat ((bodyTokens documents).count term)
  let body := bodyOf documents scored.document
  scored.score * Arithmetic.log (tokens / frequency) *
    ((Arithmetic.ofNat (body.count term) + feedback.mu * (frequency / tokens)) /
      (Arithmetic.ofNat body.length + feedback.mu))

/-- The score of a term by all documents that count as relevant, in order of their ranks. -/
def scoreOf (feedback : Feedback ω) (documents : List Document) (ranking : Ranking ω)
    (term : String) : ω :=
  Arithmetic.sum ((ranking.take feedback.documents).map (feedback.addend documents term))

/-- The distinct tokens of the bodies of the documents that count as relevant, in the order of their
first occurrence, without those that cannot be written into a query. -/
def vocabulary (feedback : Feedback ω) (documents : List Document) (ranking : Ranking ω) :
    List String :=
  (((ranking.take feedback.documents).flatMap fun scored =>
    bodyOf documents scored.document).eraseDups).filter isWritable

end Feedback

/-! ## Relevant documents by their bodies -/

/-- The relevant document is a ranked one with the tokens of its body. -/
structure RelevantDocument.IsOf {ω : Type} (documents : List Document) (scored : Scored ω)
    (document : RelevantDocument ω) : Prop where
  score : document.score = scored.score
  length : document.length = (bodyOf documents scored.document).length
  terms : document.terms = firstOccurrences (bodyOf documents scored.document)
  count : ∀ term, document.counts.getD term 0 = (bodyOf documents scored.document).count term

namespace Feedback

variable {ω : Type} {feedback : Feedback ω} {documents : List Document} {stopwords : List String}
  {ranking : Ranking ω} {relevant : List (RelevantDocument ω)}

variable [Arithmetic ω]

theorem contribution_eq {scored : Scored ω} {document : RelevantDocument ω}
    (isOf : document.IsOf documents scored) (term : String) :
    feedback.contribution (Arithmetic.ofNat (bodyTokens documents).length)
        (Arithmetic.ofNat ((bodyTokens documents).count term)) term document =
      feedback.addend documents term scored := by
  rw [contribution, addend, isOf.score, isOf.length, isOf.count]

theorem termScore_eq
    (each : List.Forall₂ (RelevantDocument.IsOf documents) (ranking.take feedback.documents) relevant)
    {term : String} (occurs : term ∈ bodyTokens documents) :
    feedback.termScore (.ofDocuments documents stopwords) relevant term =
      feedback.scoreOf documents ranking term := by
  have some : (bodyTokens documents).count term ≠ 0 := (List.count_pos_iff.mpr occurs).ne'
  simp only [termScore, collectionFrequency_body, tokenCount_body, if_neg some, scoreOf]
  refine congrArg Arithmetic.sum (map_eq_of_forall₂ ?_).symm
  exact each.imp fun scored document isOf => (contribution_eq isOf term).symm

end Feedback

/-! ## The choice -/

namespace Feedback

variable {log : Float → Float} {feedback : Feedback (FloatWith log)} {documents : List Document}
  {stopwords : List String} {ranking : Ranking (FloatWith log)}
  {relevant : List (RelevantDocument (FloatWith log))}

end Feedback

/-! ## Equal scores -/

end Retrieval
