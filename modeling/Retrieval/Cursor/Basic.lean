import Retrieval.Cursor.Reader
import Retrieval.Query.Tree

/-!
# Cursors

A cursor is a query in the course of its evaluation: the list operators and terms hold a reader of
their inverted list, the scoring operators hold the document on which they were found to match. All
movement goes forward, to greater documents.
-/

namespace Retrieval

/-- What the score of a sum needs to know of one operand. -/
structure OperandStatistics (ω : Type) where
  /-- How often the operand occurs in the sum: at its first occurrence the full number, zero at
  repetitions and for operands without an inverted list. -/
  queryFrequency : Nat
  /-- The mean length of the operand's field. -/
  meanLength : ω

/-- What the score of a sum needs to know of its operands and of the collection. -/
structure SumStatistics (ω : Type) where
  /-- The statistics of the operands, in order. -/
  operands : List (OperandStatistics ω)
  /-- The number of documents. -/
  documents : ω

/-- A query in the course of its evaluation. -/
inductive Cursor (ω : Type) where
  /-- A term with the reader of its list, once it has been opened. -/
  | term (text : String) (field : Field) (reader : Option Reader)
  /-- A list operator with the reader of its list, once it has been opened. -/
  | list (operator : ListOperator) (operands : List (Cursor ω)) (weights : List ω)
      (reader : Option Reader)
  /-- A scoring operator with the document on which it is known to match. -/
  | scoring (operator : ScoringOperator) (operands : List (Cursor ω)) (weights : List ω)
      (matched : Option DocumentId) (statistics : Option (SumStatistics ω))

namespace Cursor

variable {ω : Type}

mutual

/-- The cursor of a query that has not been opened on an index. -/
def ofQuery : Query ω → Cursor ω
  | .term text field => .term text field none
  | .apply (.list operator) operands weights => .list operator (ofQueries operands) weights none
  | .apply (.scoring operator) operands weights =>
      .scoring operator (ofQueries operands) weights none none

/-- The cursors of several queries. -/
def ofQueries : List (Query ω) → List (Cursor ω)
  | [] => []
  | query :: later => ofQuery query :: ofQueries later

end

mutual

/-- The query that is evaluated. -/
def query : Cursor ω → Query ω
  | .term text field _ => .term text field
  | .list operator operands weights _ => .apply (.list operator) (queries operands) weights
  | .scoring operator operands weights _ _ =>
      .apply (.scoring operator) (queries operands) weights

/-- The queries of several cursors. -/
def queries : List (Cursor ω) → List (Query ω)
  | [] => []
  | cursor :: later => cursor.query :: queries later

end

/-- The operands. -/
def operands : Cursor ω → List (Cursor ω)
  | .term .. => []
  | .list _ operands .. => operands
  | .scoring _ operands .. => operands

/-- The cursor with other operands. -/
def withOperands (operands : List (Cursor ω)) : Cursor ω → Cursor ω
  | .term text field reader => .term text field reader
  | .list operator _ weights reader => .list operator operands weights reader
  | .scoring operator _ weights matched statistics =>
      .scoring operator operands weights matched statistics

/-- The cursor has an inverted list of its own. -/
def isList : Cursor ω → Bool
  | .scoring .. => false
  | _ => true

mutual

/-- The field in which a cursor counts: that of its first term. -/
def field : Cursor ω → Field
  | .term _ field _ => field
  | .list _ operands _ _ => fieldOf operands
  | .scoring _ operands _ _ _ => fieldOf operands

/-- The field in which the first of several cursors counts; the body if there is none. -/
def fieldOf : List (Cursor ω) → Field
  | [] => .body
  | first :: _ => first.field

end

/-- The reader of a term or a list operator. -/
def reader? : Cursor ω → Option Reader
  | .term _ _ reader => reader
  | .list _ _ _ reader => reader
  | .scoring .. => none

/-- Changes the reader of a term or a list operator. -/
def mapReader (change : Reader → Reader) : Cursor ω → Cursor ω
  | .term text field reader => .term text field (reader.map change)
  | .list operator operands weights reader =>
      .list operator operands weights (reader.map change)
  | cursor => cursor

/-- The inverted list, once it has been opened. -/
def invertedList? (cursor : Cursor ω) : Option InvertedList :=
  cursor.reader?.map (·.list)

/-- The present posting. -/
def posting? (cursor : Cursor ω) : Option Posting :=
  cursor.reader?.bind (·.posting?)

/-- The present document: that of the present posting, or that of the match which has been found. -/
def current? : Cursor ω → Option DocumentId
  | .scoring _ _ _ matched _ => matched
  | cursor => cursor.reader?.bind (·.current?)

/-- The least present document. -/
def earliest (cursors : List (Cursor ω)) : Option DocumentId :=
  (cursors.filterMap current?).min?

mutual

/-- Moves past the given document. -/
def advancePast (document : DocumentId) : Cursor ω → Cursor ω
  | .scoring operator operands weights _ statistics =>
      .scoring operator (advancePastEach document operands) weights none statistics
  | .term text field reader => .term text field (reader.map (·.skip (· ≤ document)))
  | .list operator operands weights reader =>
      .list operator operands weights (reader.map (·.skip (· ≤ document)))

/-- Moves several cursors past the given document. -/
def advancePastEach (document : DocumentId) : List (Cursor ω) → List (Cursor ω)
  | [] => []
  | cursor :: later => cursor.advancePast document :: advancePastEach document later

end

mutual

/-- Moves to the given document or the first one after it. A match there or beyond stays. -/
def advanceTo (document : DocumentId) : Cursor ω → Cursor ω
  | .scoring operator operands weights matched statistics =>
      if matched.any (document ≤ ·) then
        .scoring operator operands weights matched statistics
      else .scoring operator (advanceToEach document operands) weights none statistics
  | .term text field reader => .term text field (reader.map (·.skip (· < document)))
  | .list operator operands weights reader =>
      .list operator operands weights (reader.map (·.skip (· < document)))

/-- Moves several cursors to the given document or the first one after it. -/
def advanceToEach (document : DocumentId) : List (Cursor ω) → List (Cursor ω)
  | [] => []
  | cursor :: later => cursor.advanceTo document :: advanceToEach document later

end

mutual

/-- The number of operators and terms, together with the postings that are still ahead of them. -/
def remaining : Cursor ω → Nat
  | .scoring _ operands _ _ _ => remainingEach operands + 1
  | .term _ _ reader => (reader.elim 0 (·.postings.length)) + 1
  | .list _ _ _ reader => (reader.elim 0 (·.postings.length)) + 1

/-- The sum of what remains of several cursors. -/
def remainingEach : List (Cursor ω) → Nat
  | [] => 0
  | cursor :: later => cursor.remaining + remainingEach later

end

mutual

/-- The number of operators and terms on the longest way down. -/
def height : Cursor ω → Nat
  | .term .. => 1
  | .list _ operands _ _ => heightEach operands + 1
  | .scoring _ operands _ _ _ => heightEach operands + 1

/-- The greatest height of several cursors. -/
def heightEach : List (Cursor ω) → Nat
  | [] => 0
  | cursor :: later => max cursor.height (heightEach later)

end

end Cursor

end Retrieval
