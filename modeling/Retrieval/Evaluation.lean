import Retrieval.Query.Prune
import Retrieval.Ranking
import Retrieval.Scoring

/-!
# Evaluating queries

A query is read, pruned, opened on an index and then evaluated document by document: the cursor finds
its next match, the match is scored, and the cursor moves past it.
-/

namespace Retrieval

/-- What a run of a cursor gives: the scored matches in order, and the match at which scoring
failed. -/
structure Drained (ω : Type) where
  /-- The matches that have been scored. -/
  scored : Ranking ω
  /-- The match whose scoring failed, and why. -/
  failure : Option (DocumentId × Error)
  /-- The cursor as the run leaves it. -/
  cursor : Cursor ω

namespace Cursor

variable {ω : Type} [Arithmetic ω]

/-- Scores the matches that follow, in at most so many rounds. -/
def drainWithin (index : Index) (model : Model ω) : Nat → Cursor ω → Drained ω
  | 0, cursor => ⟨[], none, cursor⟩
  | rounds + 1, cursor =>
      let cursor := cursor.settle model.isSoft
      match cursor.current? with
      | none => ⟨[], none, cursor⟩
      | some document =>
          match cursor.score index model with
          | (.error cause, cursor) => ⟨[], some (document, cause), cursor⟩
          | (.ok score, cursor) =>
              let later := drainWithin index model rounds (cursor.advancePast document)
              { later with scored := ⟨document, score⟩ :: later.scored }

/-- Scores all matches that follow. Each match is a document of a posting ahead of the cursor, or one
that an operator has already found. -/
def drain (index : Index) (model : Model ω) (cursor : Cursor ω) : Drained ω :=
  drainWithin index model (cursor.remaining + 1) cursor

end Cursor

/-- What queries are evaluated with. -/
structure Engine (ω : Type) where
  /-- The index of the collection. -/
  index : Index
  /-- The retrieval model. -/
  model : Model ω
  /-- The analyzer of query texts. -/
  analyzer : Analyzer

namespace Engine

variable {ω : Type} [Arithmetic ω]

/-- The engine whose analyzer is that of the index. -/
def ofIndex (index : Index) (model : Model ω) : Engine ω :=
  ⟨index, model, index.analyzer⟩

/-- The query that a text writes. -/
def parse (engine : Engine ω) (text : String) : Except QueryError (Query ω) :=
  Query.parse engine.model.defaultOperator engine.analyzer text

/-- The query that a text writes, pruned; none if nothing can match. -/
def plan (engine : Engine ω) (text : String) : Except Error (Option (Query ω)) :=
  match engine.parse text with
  | .ok query => .ok query.prune
  | .error cause => .error (.query cause)

/-- The sorted matches of a query. A query without operands has none. -/
def evaluate (engine : Engine ω) (query : Query ω) : Except Error (Ranking ω) :=
  if query.operands.isEmpty then .ok []
  else
    let cursor := (Cursor.ofQuery query).openOn engine.index
    let drained := cursor.drain engine.index engine.model
    match drained.failure with
    | some (_, cause) => .error cause
    | none => .ok (Ranking.sort drained.scored)

/-- The sorted matches of a pruned query. -/
def evaluatePlan (engine : Engine ω) : Option (Query ω) → Except Error (Ranking ω)
  | none => .ok []
  | some query => engine.evaluate query

/-- The sorted matches of the query that a text writes. -/
def search (engine : Engine ω) (text : String) : Except Error (Ranking ω) := do
  let plan ← engine.plan text
  engine.evaluatePlan plan

end Engine

end Retrieval
