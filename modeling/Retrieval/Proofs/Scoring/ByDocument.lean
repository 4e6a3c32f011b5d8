import Retrieval.Proofs.Cursor.Documents
import Retrieval.Proofs.Cursor.Shape
import Retrieval.Scoring

/-!
# Scores without cursors

The score of one document under a query, by recursion over the query. It reads the postings of that
document and the statistics of the collection, and nothing moves. An operand that may be absent from the
document counts if the document is among those of the operand.
-/

namespace Retrieval

/-- The number of occurrences in a document. -/
def InvertedList.frequencyAt (document : DocumentId) (list : InvertedList) : Nat :=
  (list.postings.find? (·.document == document)).elim 0 (·.frequency)

namespace Query

variable {ω : Type} [Arithmetic ω]

/-! ## Scores of lists -/

/-- The smoothed probability of a document with so many occurrences. -/
def smoothedAt (index : Index) (parameters : Indri ω) (document : DocumentId) (frequency : Nat)
    (query : Query ω) : Except Error ω :=
  match index.fieldLength query.field document with
  | .error cause => .error (.index cause)
  | .ok length =>
      .ok (parameters.probability (Arithmetic.ofNat frequency) (Arithmetic.ofNat length)
        (query.listOn index).collectionFrequency (index.tokenCount query.field))

/-- The score of a document by the inverted list of a query. -/
def listScoreAt (index : Index) (model : Model ω) (document : DocumentId) (query : Query ω) :
    Except Error ω :=
  let frequency := (query.listOn index).frequencyAt document
  match model with
  | .unrankedBoolean => .ok 1
  | .rankedBoolean => .ok (Arithmetic.ofNat frequency)
  | .indri parameters => query.smoothedAt index parameters document frequency
  | .bm25 _ => .error (.unsupported ScoringOperator.score.name model.name)

/-- The score of a term in a sum under BM25. -/
def termScoreAt (index : Index) (parameters : Bm25 ω) (document : DocumentId)
    (queryFrequency : Nat) (query : Query ω) : Except Error ω :=
  match index.fieldLength query.field document with
  | .error cause => .error (.index cause)
  | .ok length =>
      .ok <| parameters.termScore
        { frequency := Arithmetic.ofNat ((query.listOn index).frequencyAt document)
          documentFrequency := Arithmetic.ofNat (query.listOn index).documentFrequency
          documents := Arithmetic.ofNat index.documentCount
          length := Arithmetic.ofNat length
          meanLength := SumStatistics.meanLength index query.field
          queryFrequency := Arithmetic.ofNat queryFrequency }

/-! ## Default scores -/

mutual

/-- The score of a document that the query does not match. -/
def defaultAt (index : Index) (model : Model ω) (document : DocumentId) :
    Query ω → Except Error ω
  | .apply (.scoring operator) operands weights =>
      match model with
      | .indri parameters =>
          match operator with
          | .score =>
              match operands with
              | [] => .ok 0
              | first :: _ => first.smoothedAt index parameters document 0
          | .not => .ok 0
          | .sum => .ok 0
          | operator =>
              (defaultsAt index model document operands).map (combine operator weights)
      | _ => .ok 0
  | query =>
      match model with
      | .indri parameters => query.smoothedAt index parameters document 0
      | _ => .ok 0

/-- The default scores of several queries, or the first failure. -/
def defaultsAt (index : Index) (model : Model ω) (document : DocumentId) :
    List (Query ω) → Except Error (List ω)
  | [] => .ok []
  | query :: later => do
      let score ← query.defaultAt index model document
      let scores ← defaultsAt index model document later
      return score :: scores

end

/-! ## Sums -/

/-- The query with an inverted list that an operand of a sum stands for. -/
def summand? : Query ω → Option (Query ω)
  | .apply (.scoring .score) (first :: _) _ => if first.isList then some first else none
  | .apply (.scoring _) _ _ => none
  | query => some query

/-- How often each operand occurs in a sum: at its first occurrence the full number, zero at
repetitions and for operands without an inverted list. -/
def queryFrequencies (operands : List (Query ω)) : List Nat :=
  let keys := operands.map fun operand => operand.summand?.map write
  keys.mapIdx (SumStatistics.repetitions keys)

/-- What a sum needs to know of an operand with the given number of occurrences. -/
def statisticsAt (index : Index) (query : Query ω) (queryFrequency : Nat) : OperandStatistics ω :=
  ⟨queryFrequency, query.summand?.elim 0 fun summand => SumStatistics.meanLength index summand.field⟩

/-- What an operand with the given score adds to a sum; nothing if it repeats another one. -/
def addendAt (index : Index) (parameters : Bm25 ω) (document : DocumentId) (operand : Query ω)
    (score : Except Error ω) (queryFrequency : Nat) : Except Error (Option ω) :=
  match operand.summand? with
  | none => score.map some
  | some present =>
      if queryFrequency = 0 then .ok none
      else (present.termScoreAt index parameters document queryFrequency).map some

/-- What the operands that have the document add to a sum, or the first failure. -/
def addendsAt (index : Index) (soft : Bool) (parameters : Bm25 ω) (document : DocumentId)
    (operands : List (Query ω × Except Error ω)) : Except Error (List ω) :=
  let counted := operands.zip (queryFrequencies (operands.map Prod.fst))
  let present := counted.filter fun ((query, _), _) => document ∈ query.documentsOn index soft
  let addends := present.mapM fun ((query, score), queryFrequency) =>
    addendAt index parameters document query score queryFrequency
  addends.map fun addends => addends.filterMap id

/-! ## Scores of operators -/

/-- The scores of the operands that have the document, or the first failure. -/
def presentAt (index : Index) (soft : Bool) (document : DocumentId)
    (operands : List (Query ω × Except Error ω)) : Except Error (List ω) :=
  (operands.filter fun (query, _) => document ∈ query.documentsOn index soft).mapM fun (_, score) =>
    score

/-- The scores of the operands that have the document and the default scores of the others, or the
first failure. -/
def presentOrDefaultAt (index : Index) (model : Model ω) (document : DocumentId)
    (operands : List (Query ω × Except Error ω)) : Except Error (List ω) :=
  operands.mapM fun (query, score) =>
    if document ∈ query.documentsOn index model.isSoft then score
    else query.defaultAt index model document

/-- The score of an operator from those of its operands. -/
def combinedAt (index : Index) (model : Model ω) (document : DocumentId)
    (operator : ScoringOperator) (weights : List ω)
    (operands : List (Query ω × Except Error ω)) : Except Error ω :=
  match operator, model with
  | .not, _ => .ok 0
  | .score, model =>
      match operands with
      | [] => .ok 0
      | first :: _ => first.1.listScoreAt index model document
  | .and, .unrankedBoolean => .ok 1
  | .or, .unrankedBoolean => .ok 1
  | .and, .rankedBoolean => (operands.mapM Prod.snd).map least
  | .or, .rankedBoolean => (presentAt index model.isSoft document operands).map greatest
  | .or, .indri _ => (presentAt index model.isSoft document operands).map noisyOr
  | .sum, .bm25 parameters =>
      (addendsAt index model.isSoft parameters document operands).map Arithmetic.sum
  | .sum, model => .error (.unsupported operator.name model.name)
  | operator, .indri _ =>
      (presentOrDefaultAt index model document operands).map (combine operator weights)
  | operator, model => .error (.unsupported operator.name model.name)

mutual

/-- The score of a document that the query matches. -/
def scoreAt (index : Index) (model : Model ω) (document : DocumentId) :
    Query ω → Except Error ω
  | .apply (.scoring operator) operands weights =>
      combinedAt index model document operator weights (scoresAt index model document operands)
  | query => query.listScoreAt index model document

/-- Several queries, each with its score of a document. -/
def scoresAt (index : Index) (model : Model ω) (document : DocumentId) :
    List (Query ω) → List (Query ω × Except Error ω)
  | [] => []
  | query :: later =>
      (query, query.scoreAt index model document) :: scoresAt index model document later

end

theorem scoresAt_eq_map (index : Index) (model : Model ω) (document : DocumentId)
    (queries : List (Query ω)) :
    scoresAt index model document queries =
      queries.map fun query => (query, query.scoreAt index model document) := by
  induction queries with
  | nil => simp [scoresAt]
  | cons query later induction => simp [scoresAt, induction]

theorem scoreAt_of_isList (index : Index) (model : Model ω) (document : DocumentId) {query : Query ω}
    (isList : query.isList = true) :
    query.scoreAt index model document = query.listScoreAt index model document := by
  cases query with
  | term => rfl
  | apply operator operands weights =>
      cases operator with
      | list operator => rfl
      | scoring operator => simp [Query.isList, Operator.isList] at isList

end Query

end Retrieval
