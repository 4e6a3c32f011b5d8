import Retrieval.Cursor.Opening
import Retrieval.Error

/-!
# Scores

The score of a document under a retrieval model, at a cursor that stands on it. Under Indri every
operator also has a default score, for documents that it does not match. Scoring lets operands find
their matches, so it returns the cursor together with the score.
-/

namespace Retrieval

variable {ω : Type} [Arithmetic ω]

/-- The weights of as many operands, divided by their sum; equal shares if the sum is not
positive. -/
def normalizedWeights (weights : List ω) (count : Nat) : List ω :=
  let weights := (List.range count).map (weightAt weights)
  let total := Arithmetic.sum weights
  weights.map fun weight => if 0 < total then weight / total else 1 / Arithmetic.ofNat count

/-- The probability of a noisy disjunction. -/
def noisyOr (probabilities : List ω) : ω :=
  1 - Arithmetic.product (probabilities.map (1 - ·))

/-- Combines the probabilities of the operands of an operator under Indri. -/
def combine (operator : ScoringOperator) (weights probabilities : List ω) : ω :=
  if probabilities.isEmpty then 0
  else
    let count := probabilities.length
    match operator with
    | .and =>
        let exponent := 1 / Arithmetic.ofNat count
        Arithmetic.product (probabilities.map fun probability => Arithmetic.pow probability exponent)
    | .or => noisyOr probabilities
    | .wand =>
        Arithmetic.product ((normalizedWeights weights count).zipWith
          (fun weight probability => Arithmetic.pow probability weight) probabilities)
    | .wsum =>
        Arithmetic.sumFromFirst ((normalizedWeights weights count).zipWith
          (fun weight probability => probability * weight) probabilities)
    | _ => 0

/-- The least of the numbers; zero if there are none. -/
def least : List ω → ω
  | [] => 0
  | number :: later => later.foldl Arithmetic.smaller number

/-- The greatest of the numbers and zero. -/
def greatest (numbers : List ω) : ω :=
  numbers.foldl Arithmetic.larger 0

namespace Cursor

/-- The smoothed probability of a document that has so many occurrences. -/
def smoothedProbability (index : Index) (parameters : Indri ω) (document : DocumentId)
    (frequency : Nat) (cursor : Cursor ω) : Except Error ω :=
  match index.fieldLength cursor.field document with
  | .error cause => .error (.index cause)
  | .ok length =>
      let collectionFrequency := cursor.invertedList?.elim 0 (·.collectionFrequency)
      .ok (parameters.probability (Arithmetic.ofNat frequency) (Arithmetic.ofNat length)
        collectionFrequency (index.tokenCount cursor.field))

/-- The number of occurrences in the present document. -/
def frequency (cursor : Cursor ω) : Nat :=
  cursor.posting?.elim 0 (·.frequency)

/-- The score of the inverted list of a cursor that stands on a document. -/
def listScore (index : Index) (model : Model ω) (document : DocumentId) (cursor : Cursor ω) :
    Except Error ω :=
  match model with
  | .unrankedBoolean => .ok 1
  | .rankedBoolean => .ok (Arithmetic.ofNat cursor.frequency)
  | .indri parameters => cursor.smoothedProbability index parameters document cursor.frequency
  | .bm25 _ => .error (.unsupported ScoringOperator.score.name model.name)

mutual

/-- The score of a document that the cursor does not match: the smoothed probability of no
occurrence. Only Indri has one that is not zero. -/
def defaultScore (index : Index) (model : Model ω) (document : DocumentId) :
    Cursor ω → Except Error ω
  | .scoring operator operands weights _ _ =>
      match model with
      | .indri parameters =>
          match operator with
          | .score =>
              match operands with
              | [] => .ok 0
              | first :: _ => first.smoothedProbability index parameters document 0
          | .not => .ok 0
          | .sum => .ok 0
          | operator =>
              (defaultScores index model document operands).map (combine operator weights)
      | _ => .ok 0
  | cursor =>
      match model with
      | .indri parameters => cursor.smoothedProbability index parameters document 0
      | _ => .ok 0

/-- The default scores of several cursors, or the first failure. -/
def defaultScores (index : Index) (model : Model ω) (document : DocumentId) :
    List (Cursor ω) → Except Error (List ω)
  | [] => .ok []
  | cursor :: later => do
      let score ← cursor.defaultScore index model document
      let scores ← defaultScores index model document later
      return score :: scores

end

/-- Asks each cursor in turn, up to the first failure. The cursors are returned as the questions
leave them. -/
def askEach {α : Type} (ask : Cursor ω → Except Error α × Cursor ω) :
    List (Cursor ω) → Except Error (List α) × List (Cursor ω)
  | [] => (.ok [], [])
  | cursor :: later =>
      match ask cursor with
      | (.error cause, cursor) => (.error cause, cursor :: later)
      | (.ok answer, cursor) =>
          let (answers, later) := askEach ask later
          (answers.map (answer :: ·), cursor :: later)

/-- Asks each cursor in turn about what belongs to it, up to the first failure or the end of what is
known. -/
def askEachWith {α β : Type} (ask : β → Cursor ω → Except Error α × Cursor ω) :
    List β → List (Cursor ω) → Except Error (List α) × List (Cursor ω)
  | known :: others, cursor :: later =>
      match ask known cursor with
      | (.error cause, cursor) => (.error cause, cursor :: later)
      | (.ok answer, cursor) =>
          let (answers, later) := askEachWith ask others later
          (answers.map (answer :: ·), cursor :: later)
  | _, cursors => (.ok [], cursors)

/-- The score of a term of a sum under BM25, where the cursor stands on the document. -/
def termScore (index : Index) (parameters : Bm25 ω) (documents : ω)
    (statistics : OperandStatistics ω) (document : DocumentId) (cursor : Cursor ω) :
    Except Error ω :=
  match index.fieldLength cursor.field document with
  | .error cause => .error (.index cause)
  | .ok length =>
      .ok <| parameters.termScore
        { frequency := Arithmetic.ofNat cursor.frequency
          documentFrequency := Arithmetic.ofNat (cursor.invertedList?.elim 0 (·.documentFrequency))
          documents
          length := Arithmetic.ofNat length
          meanLength := statistics.meanLength
          queryFrequency := Arithmetic.ofNat statistics.queryFrequency }

/-- A cursor that has found its match, and whether it stands on the document. -/
def settleOn (model : Model ω) (document : DocumentId) (cursor : Cursor ω) : Bool × Cursor ω :=
  let cursor := cursor.settle model.isSoft
  (cursor.current? == some document, cursor)

/-- The score of an operand where it matches the document, given how operands are scored. -/
def scoreIfPresent (score : Cursor ω → Except Error ω × Cursor ω) (model : Model ω)
    (document : DocumentId) (operand : Cursor ω) : Except Error (Option ω) × Cursor ω :=
  match operand.settleOn model document with
  | (true, operand) =>
      let (answer, operand) := score operand
      (answer.map some, operand)
  | (false, operand) => (.ok none, operand)

/-- The score of an operand where it matches the document, and its default score elsewhere. -/
def scoreOrDefault (score : Cursor ω → Except Error ω × Cursor ω) (index : Index)
    (model : Model ω) (document : DocumentId) (operand : Cursor ω) :
    Except Error ω × Cursor ω :=
  match operand.settleOn model document with
  | (true, operand) => score operand
  | (false, operand) => (operand.defaultScore index model document, operand)

/-- What an operand adds to a sum where it matches the document. A repeated operand adds nothing:
its repetitions count where it occurs first. -/
def scoreInSum (score : Cursor ω → Except Error ω × Cursor ω) (index : Index)
    (model : Model ω) (parameters : Bm25 ω) (documents : ω) (document : DocumentId)
    (known : OperandStatistics ω) (operand : Cursor ω) :
    Except Error (Option ω) × Cursor ω :=
  match operand.settleOn model document with
  | (false, operand) => (.ok none, operand)
  | (true, operand) =>
      match SumStatistics.listOf operand with
      | none =>
          let (answer, operand) := score operand
          (answer.map some, operand)
      | some present =>
          if known.queryFrequency = 0 then (.ok none, operand)
          else
            ((present.termScore index parameters documents known document).map some, operand)

/-- The score of a scoring operator that matches the document, given how operands are scored, with
the operands as scoring leaves them. -/
def scoreOperands (score : Cursor ω → Except Error ω × Cursor ω) (index : Index)
    (model : Model ω) (document : DocumentId) (statistics : Option (SumStatistics ω))
    (operator : ScoringOperator) (weights : List ω) (operands : List (Cursor ω)) :
    Except Error ω × List (Cursor ω) :=
  match operator, model with
  | .not, _ => (.ok 0, operands)
  | .score, model =>
      match operands with
      | [] => (.ok 0, operands)
      | first :: _ => (first.listScore index model document, operands)
  | .and, .unrankedBoolean => (.ok 1, operands)
  | .or, .unrankedBoolean => (.ok 1, operands)
  | .and, .rankedBoolean =>
      let (answers, operands) := askEach score operands
      (answers.map least, operands)
  | .or, .rankedBoolean =>
      let (answers, operands) := askEach (scoreIfPresent score model document) operands
      (answers.map fun scores => greatest (scores.filterMap id), operands)
  | .or, .indri _ =>
      let (answers, operands) := askEach (scoreIfPresent score model document) operands
      (answers.map fun scores => noisyOr (scores.filterMap id), operands)
  | .sum, .bm25 parameters =>
      match statistics with
      | none => (.error (.index .unopenedSum), operands)
      | some sum =>
          let ask := scoreInSum score index model parameters sum.documents document
          let (answers, operands) := askEachWith ask sum.operands operands
          (answers.map fun scores => Arithmetic.sum (scores.filterMap id), operands)
  | .sum, model => (.error (.unsupported operator.name model.name), operands)
  | operator, .indri _ =>
      let (answers, operands) := askEach (scoreOrDefault score index model document) operands
      (answers.map (combine operator weights), operands)
  | operator, model => (.error (.unsupported operator.name model.name), operands)

/-- The score of the present match, zero if there is none. Operators more than `levels` deep are left
alone. -/
def scoreWithin (index : Index) (model : Model ω) : Nat → Cursor ω → Except Error ω × Cursor ω
  | 0, cursor => (.ok 0, cursor)
  | levels + 1, cursor =>
      match cursor.current? with
      | none => (.ok 0, cursor)
      | some document =>
          match cursor with
          | .scoring operator operands weights matched statistics =>
              let (answer, operands) := scoreOperands (scoreWithin index model levels) index model
                document statistics operator weights operands
              (answer, .scoring operator operands weights matched statistics)
          | cursor => (cursor.listScore index model document, cursor)

/-- The score of the present match, with the cursor as scoring leaves it. -/
def score (index : Index) (model : Model ω) (cursor : Cursor ω) : Except Error ω × Cursor ω :=
  scoreWithin index model cursor.height cursor

end Cursor

end Retrieval
