import Retrieval.Proofs.Cursor.Documents
import Retrieval.Scoring

/-!
# Searches and scores that end

The rounds of a search and the levels of a tree are bounded where cursors settle and where they are
scored. The relations of this file say the same without any bound: `Settles` and `Scores` hold exactly
of what the search for a match and the scoring come to in finitely many steps, however many these are.
-/

namespace Retrieval.Cursor

variable {ω : Type}

mutual

/-- The search of a cursor for its match ends and leaves the second cursor. -/
inductive Settles (soft : Bool) : Cursor ω → Cursor ω → Prop
  /-- A cursor with a list stays where it is. -/
  | list {cursor : Cursor ω} (isList : cursor.isList = true) : Settles soft cursor cursor
  /-- A known match stays. -/
  | known {operator : ScoringOperator} {operands : List (Cursor ω)} {weights : List ω}
      {document : DocumentId} {statistics : Option (SumStatistics ω)} :
      Settles soft (.scoring operator operands weights (some document) statistics)
        (.scoring operator operands weights (some document) statistics)
  /-- All operands settle, and the earliest document is the match. -/
  | any {operator : ScoringOperator} {operands settled : List (Cursor ω)} {weights : List ω}
      {statistics : Option (SumStatistics ω)} (matching : operator.matching soft = .any)
      (each : SettlesEach soft operands settled) :
      Settles soft (.scoring operator operands weights none statistics)
        (.scoring operator settled weights (earliest settled) statistics)
  /-- The operands leap over each other until they agree. -/
  | all {operator : ScoringOperator} {operands settled : List (Cursor ω)} {weights : List ω}
      {found : Option DocumentId} {statistics : Option (SumStatistics ω)}
      (matching : operator.matching soft = .all) (agree : Agrees soft operands found settled) :
      Settles soft (.scoring operator operands weights none statistics)
        (.scoring operator settled weights found statistics)
  /-- The first operand settles, and its document is the match. -/
  | leading {operator : ScoringOperator} {first settled : Cursor ω} {others : List (Cursor ω)}
      {weights : List ω} {statistics : Option (SumStatistics ω)}
      (matching : operator.matching soft = .leading) (head : Settles soft first settled) :
      Settles soft (.scoring operator (first :: others) weights none statistics)
        (.scoring operator (settled :: others) weights settled.current? statistics)
  /-- There is no first operand. -/
  | leaderless {operator : ScoringOperator} {weights : List ω}
      {statistics : Option (SumStatistics ω)} (matching : operator.matching soft = .leading) :
      Settles soft (.scoring operator [] weights none statistics)
        (.scoring operator [] weights none statistics)
  /-- All operands settle, and there is no match. -/
  | never {operator : ScoringOperator} {operands settled : List (Cursor ω)} {weights : List ω}
      {statistics : Option (SumStatistics ω)} (matching : operator.matching soft = .never)
      (each : SettlesEach soft operands settled) :
      Settles soft (.scoring operator operands weights none statistics)
        (.scoring operator settled weights none statistics)

/-- Several cursors settle one after the other. -/
inductive SettlesEach (soft : Bool) : List (Cursor ω) → List (Cursor ω) → Prop
  | nil : SettlesEach soft [] []
  | cons {cursor settled : Cursor ω} {cursors later : List (Cursor ω)}
      (head : Settles soft cursor settled) (tail : SettlesEach soft cursors later) :
      SettlesEach soft (cursor :: cursors) (settled :: later)

/-- Cursors move to a document one after the other, until one does not come to stand on it. -/
inductive Meets (soft : Bool) :
    DocumentId → List (Cursor ω) → Agreement → List (Cursor ω) → Prop
  | nil {document : DocumentId} : Meets soft document [] .agreed []
  | exhausted {document : DocumentId} {cursor settled : Cursor ω} {cursors : List (Cursor ω)}
      (head : Settles soft (cursor.advanceTo document) settled) (ended : settled.current? = none) :
      Meets soft document (cursor :: cursors) .exhausted (settled :: cursors)
  | ahead {document other : DocumentId} {cursor settled : Cursor ω} {cursors : List (Cursor ω)}
      (head : Settles soft (cursor.advanceTo document) settled)
      (stands : settled.current? = some other) (differs : other ≠ document) :
      Meets soft document (cursor :: cursors) (.ahead other) (settled :: cursors)
  | same {document : DocumentId} {cursor settled : Cursor ω} {cursors later : List (Cursor ω)}
      {agreement : Agreement}
      (head : Settles soft (cursor.advanceTo document) settled)
      (stands : settled.current? = some document)
      (tail : Meets soft document cursors agreement later) :
      Meets soft document (cursor :: cursors) agreement (settled :: later)

/-- The search of cursors for a common document ends with what it has found. -/
inductive Agrees (soft : Bool) :
    List (Cursor ω) → Option DocumentId → List (Cursor ω) → Prop
  | nil : Agrees soft [] none []
  | ended {first settled : Cursor ω} {others : List (Cursor ω)}
      (head : Settles soft first settled) (ended : settled.current? = none) :
      Agrees soft (first :: others) none (settled :: others)
  | agreed {first settled : Cursor ω} {others later : List (Cursor ω)} {document : DocumentId}
      (head : Settles soft first settled) (stands : settled.current? = some document)
      (met : Meets soft document others .agreed later) :
      Agrees soft (first :: others) (some document) (settled :: later)
  | exhausted {first settled : Cursor ω} {others later : List (Cursor ω)} {document : DocumentId}
      (head : Settles soft first settled) (stands : settled.current? = some document)
      (met : Meets soft document others .exhausted later) :
      Agrees soft (first :: others) none (settled :: later)
  /-- Another round, from the document that one of the others has reached. -/
  | leap {first settled : Cursor ω} {others later final : List (Cursor ω)}
      {document other : DocumentId} {found : Option DocumentId}
      (head : Settles soft first settled) (stands : settled.current? = some document)
      (met : Meets soft document others (.ahead other) later)
      (next : Agrees soft (settled.advanceTo other :: later) found final) :
      Agrees soft (first :: others) found final

end

variable [Arithmetic ω]

/-- Scoring a cursor ends with an answer and a cursor. A scoring operator asks its operands for their
scores, as they stand or after their own search, so all these have to end. -/
inductive Scores (index : Index) (model : Model ω) :
    Cursor ω → Except Error ω × Cursor ω → Prop
  | nowhere {cursor : Cursor ω} (nowhere : cursor.current? = none) :
      Scores index model cursor (.ok 0, cursor)
  | list {cursor : Cursor ω} {document : DocumentId} (isList : cursor.isList = true)
      (stands : cursor.current? = some document) :
      Scores index model cursor (cursor.listScore index model document, cursor)
  | operands {operator : ScoringOperator} {operands : List (Cursor ω)} {weights : List ω}
      {document : DocumentId} {statistics : Option (SumStatistics ω)}
      (score : Cursor ω → Except Error ω × Cursor ω)
      (settles : ∀ operand ∈ operands,
        Settles model.isSoft operand (operand.settle model.isSoft))
      (standing : ∀ operand ∈ operands, Scores index model operand (score operand))
      (settled : ∀ operand ∈ operands, Scores index model (operand.settle model.isSoft)
        (score (operand.settle model.isSoft))) :
      Scores index model (.scoring operator operands weights (some document) statistics)
        ((scoreOperands score index model document statistics operator weights operands).1,
          .scoring operator
            (scoreOperands score index model document statistics operator weights operands).2
            weights (some document) statistics)

end Retrieval.Cursor
