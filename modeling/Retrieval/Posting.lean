import Retrieval.Field

/-!
# Inverted lists

An inverted list holds the documents in which a term, or a combination of terms, occurs, with the
positions of the occurrences. Lists are built from their end: the last document and the last
position come first, so each step touches only the head. The counts of a list and of a posting are
kept beside the data that they count.
-/

namespace Retrieval

/-- The number of a document in its collection. -/
abbrev DocumentId := Nat

/-- The occurrences in one document. -/
structure Posting where
  /-- The document. -/
  document : DocumentId
  /-- The number of occurrences. -/
  frequency : Nat
  /-- The offsets of the occurrences in the field. -/
  positions : List Nat
deriving DecidableEq, Repr

namespace Posting

/-- The posting of a document with the given positions. -/
def ofPositions (document : DocumentId) (positions : List Nat) : Posting :=
  ⟨document, positions.length, positions⟩

end Posting

/-- The documents in which something occurs, within one field. -/
structure InvertedList where
  /-- The field. -/
  field : Field
  /-- The number of occurrences in the collection. -/
  collectionFrequency : Nat
  /-- The number of documents with an occurrence. -/
  documentFrequency : Nat
  /-- The postings, by ascending document. -/
  postings : List Posting
deriving DecidableEq, Repr

namespace InvertedList

/-- The list without occurrences. -/
def empty (field : Field) : InvertedList := ⟨field, 0, 0, []⟩

/-- The list with one more posting at its head. -/
def cons (posting : Posting) (list : InvertedList) : InvertedList :=
  { list with
    collectionFrequency := list.collectionFrequency + posting.frequency
    documentFrequency := list.documentFrequency + 1
    postings := posting :: list.postings }

/-- The list of the given postings. -/
def ofPostings (field : Field) (postings : List Posting) : InvertedList :=
  postings.foldr cons (empty field)

/-- The list with one more occurrence, ahead of all that it holds: it joins the first posting if
that is of the same document, and begins a posting otherwise. -/
def enter (document : DocumentId) (position : Nat) (list : InvertedList) : InvertedList :=
  match list.postings with
  | [] => list.cons (.ofPositions document [position])
  | posting :: later =>
      if posting.document = document then
        { list with
          collectionFrequency := list.collectionFrequency + 1
          postings := ⟨document, posting.frequency + 1, position :: posting.positions⟩ :: later }
      else list.cons (.ofPositions document [position])

end InvertedList

end Retrieval
