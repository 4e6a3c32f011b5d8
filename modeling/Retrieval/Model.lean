import Retrieval.Number.Arithmetic
import Retrieval.Operator
import Retrieval.Text.Blank
import Retrieval.Text.Lowercase
import Retrieval.File

/-!
# Retrieval models

A retrieval model says how documents are matched and scored: two Boolean models, BM25 and the
smoothed language model Indri. The last two have parameters, whose ranges are checked when a model is
chosen by name, and formulas for the score of a term.
-/

namespace Retrieval

/-- Why settings are refused. -/
inductive ConfigError where
  /-- No retrieval model has this name. -/
  | unknownModel (name : String)
  /-- A saturation parameter of BM25 is negative. -/
  | negativeSaturation
  /-- The length weight of BM25 is outside of the unit interval. -/
  | lengthWeightOutOfRange
  /-- The interpolation weight of Indri is outside of the unit interval. -/
  | interpolationOutOfRange
  /-- The smoothing mass of Indri is negative. -/
  | negativeSmoothing
  /-- Feedback uses no documents or no terms. -/
  | emptyFeedback
  /-- The smoothing mass of feedback is negative. -/
  | negativeFeedbackSmoothing
  /-- The weight of the query is outside of the unit interval. -/
  | queryWeightOutOfRange
  /-- Feedback is asked for with a model that has none. -/
  | feedbackUnsupported (model : String)
  /-- A line of a parameter file has no equals sign. -/
  | malformedLine (number : Nat) (line : String)
  /-- A parameter is missing. -/
  | missing (key : String)
  /-- The value of a parameter is no number of the kind that is needed. -/
  | invalidValue (key value : String)
  /-- The value of a switch is neither true nor false. -/
  | invalidSwitch (key value : String)
  /-- The parameter file cannot be read. -/
  | unreadable (path : FilePath) (cause : FileError)
deriving DecidableEq, Repr

namespace ConfigError

/-- The wording of a failure. -/
def message : ConfigError → String
  | .unknownModel name => "unknown retrieval model '" ++ name ++ "'"
  | .negativeSaturation => "BM25:k_1 and BM25:k_3 must be non-negative"
  | .lengthWeightOutOfRange => "BM25:b must be within [0, 1]"
  | .interpolationOutOfRange => "Indri:lambda must be within [0, 1]"
  | .negativeSmoothing => "Indri:mu must be non-negative"
  | .emptyFeedback => "fbDocs and fbTerms must be positive"
  | .negativeFeedbackSmoothing => "fbMu must be non-negative"
  | .queryWeightOutOfRange => "fbOrigWeight must be within [0, 1]"
  | .feedbackUnsupported model => "fb=true requires the Indri retrieval model, not " ++ model
  | .malformedLine number line =>
      "line " ++ Number.writeNat number ++ ": expected key=value, found '" ++ line ++ "'"
  | .missing key => "required parameter " ++ key ++ " is missing"
  | .invalidValue key value => "invalid value '" ++ value ++ "' for " ++ key
  | .invalidSwitch key value =>
      "invalid value '" ++ value ++ "' for " ++ key ++ ", expected true or false"
  | .unreadable path cause => "cannot read " ++ path ++ ": " ++ cause.message

end ConfigError

/-- The parameters of BM25. -/
structure Bm25 (ω : Type) where
  /-- How soon repetitions in a document stop to count. -/
  k1 : ω
  /-- How much the length of a document counts. -/
  b : ω
  /-- How soon repetitions in a query stop to count. -/
  k3 : ω

/-- What the score of a term under BM25 depends on. -/
structure Bm25Statistics (ω : Type) where
  /-- Occurrences in the document. -/
  frequency : ω
  /-- Documents with an occurrence. -/
  documentFrequency : ω
  /-- Documents in the collection. -/
  documents : ω
  /-- Length of the field in the document. -/
  length : ω
  /-- Mean length of the field. -/
  meanLength : ω
  /-- Occurrences in the query. -/
  queryFrequency : ω

namespace Bm25

variable {ω : Type} [Arithmetic ω]

open Arithmetic

/-- Refuses parameters outside of their ranges. -/
def validate (parameters : Bm25 ω) : Except ConfigError Unit :=
  if parameters.k1 < 0 || parameters.k3 < 0 then .error .negativeSaturation
  else if !isFraction parameters.b then .error .lengthWeightOutOfRange
  else .ok ()

/-- The weight of a term by the number of documents that have it; never negative. -/
def rarity (documents documentFrequency : ω) : ω :=
  larger (log ((documents - documentFrequency + 1 / ofNat 2) / (documentFrequency + 1 / ofNat 2))) 0

/-- The weight of the occurrences in a document. -/
def frequencyWeight (parameters : Bm25 ω) (frequency length meanLength : ω) : ω :=
  let relativeLength := if 0 < meanLength then length / meanLength else 1
  frequency /
    (frequency + parameters.k1 * (1 - parameters.b + parameters.b * relativeLength))

/-- The weight of the occurrences in the query. -/
def queryWeight (parameters : Bm25 ω) (queryFrequency : ω) : ω :=
  (parameters.k3 + 1) * queryFrequency / (parameters.k3 + queryFrequency)

/-- The score of a term in a document. -/
def termScore (parameters : Bm25 ω) (statistics : Bm25Statistics ω) : ω :=
  rarity statistics.documents statistics.documentFrequency
    * parameters.frequencyWeight statistics.frequency statistics.length statistics.meanLength
    * parameters.queryWeight statistics.queryFrequency

end Bm25

/-- The parameters of Indri. -/
structure Indri (ω : Type) where
  /-- The weight of the collection beside the document. -/
  lambda : ω
  /-- The mass of the collection within the smoothed document. -/
  mu : ω

namespace Indri

variable {ω : Type} [Arithmetic ω]

open Arithmetic

/-- Refuses parameters outside of their ranges. -/
def validate (parameters : Indri ω) : Except ConfigError Unit :=
  if !isFraction parameters.lambda then .error .interpolationOutOfRange
  else if parameters.mu < 0 then .error .negativeSmoothing
  else .ok ()

/-- The share of a term among the tokens of the collection. A term that never occurs counts as half
an occurrence, so that its share is not zero. -/
def collectionShare (ω : Type) [Arithmetic ω] (collectionFrequency tokens : Nat) : ω :=
  if tokens = 0 then 0
  else
    let occurrences : ω :=
      if collectionFrequency = 0 then 1 / ofNat 2 else ofNat collectionFrequency
    occurrences / ofNat tokens

/-- The smoothed probability of a term in a document with the given number of occurrences and
length. -/
def probability (parameters : Indri ω) (frequency length : ω)
    (collectionFrequency tokens : Nat) : ω :=
  let share := collectionShare ω collectionFrequency tokens
  let mass := length + parameters.mu
  let smoothed := if 0 < mass then (frequency + parameters.mu * share) / mass else 0
  (1 - parameters.lambda) * smoothed + parameters.lambda * share

end Indri

/-- A retrieval model. -/
inductive Model (ω : Type) where
  /-- Documents match or not. -/
  | unrankedBoolean
  /-- Documents match or not and are scored by occurrences. -/
  | rankedBoolean
  /-- Documents are scored by BM25. -/
  | bm25 (parameters : Bm25 ω)
  /-- Documents are scored by smoothed probabilities. -/
  | indri (parameters : Indri ω)

namespace Model

variable {ω : Type} [Arithmetic ω]

/-- The name of a model. -/
def name : Model ω → String
  | .unrankedBoolean => "UnrankedBoolean"
  | .rankedBoolean => "RankedBoolean"
  | .bm25 _ => "BM25"
  | .indri _ => "Indri"

/-- The operator whose operands a query text is. -/
def defaultOperator : Model ω → Operator
  | .unrankedBoolean => .scoring .or
  | .rankedBoolean => .scoring .or
  | .bm25 _ => .scoring .sum
  | .indri _ => .scoring .and

/-- A conjunction is satisfied by any of its operands, the others lowering the score. -/
def isSoft : Model ω → Bool
  | .indri _ => true
  | _ => false

/-- The model with a name in letters of any case, its parameters checked. -/
def ofName (name : String) (bm25 : Bm25 ω) (indri : Indri ω) : Except ConfigError (Model ω) :=
  match Text.lowerAscii (Text.trim name) with
  | "unrankedboolean" => .ok .unrankedBoolean
  | "rankedboolean" => .ok .rankedBoolean
  | "bm25" => bm25.validate.map fun _ => .bm25 bm25
  | "indri" => indri.validate.map fun _ => .indri indri
  | _ => .error (.unknownModel name)

end Model

/-- The usual parameters of BM25. -/
def Bm25.usual : Bm25 Float := ⟨1.2, 0.75, 0.0⟩

/-- The usual parameters of Indri. -/
def Indri.usual : Indri Float := ⟨0.4, 2500.0⟩

end Retrieval
