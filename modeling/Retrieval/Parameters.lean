import Retrieval.Feedback

/-!
# Parameter files

A parameter file holds lines `key=value`. Blank lines and lines beginning with a number sign are
passed over, and of two lines with one key the later counts. A parameter with an empty value counts
as missing.
-/

namespace Retrieval

/-- The settings of a batch run. -/
structure Parameters (ω : Type) where
  /-- The index file, or the directory that holds it. -/
  indexPath : FilePath
  /-- The file of the queries. -/
  queryFile : FilePath
  /-- The file that receives the ranking. -/
  rankingFile : FilePath
  /-- The tag of the run. -/
  tag : String
  /-- The retrieval model. -/
  model : Model ω
  /-- How queries are expanded, if they are. -/
  feedback : Option (Feedback ω)

/-- The values of a parameter file by key, the last line first. -/
abbrev Settings := List (String × String)

namespace Settings

/-- The setting of a line with the given number, if it is not passed over. -/
def ofLine (line : String) (number : Nat) : Except ConfigError (Option (String × String)) :=
  let line := Text.trim line
  match line.toList.head? with
  | none => .ok none
  | some '#' => .ok none
  | some _ =>
      match Text.cut '=' line with
      | some (key, value) => .ok (some (Text.trim key, Text.trim value))
      | none => .error (.malformedLine number line)

/-- The settings of a parameter file. -/
def ofText (text : String) : Except ConfigError Settings := do
  let settings ← (Text.lines text).zipIdx.mapM fun (line, place) => ofLine line (place + 1)
  return (settings.filterMap id).reverse

/-- The value of a key, if it is not empty. -/
def get? (settings : Settings) (key : String) : Option String :=
  (settings.lookup key).filter fun value => !value.isEmpty

/-- The value of a key that must not be missing. -/
def required (settings : Settings) (key : String) : Except ConfigError String :=
  match settings.get? key with
  | some value => .ok value
  | none => .error (.missing key)

/-- Reads a value. -/
def readValue {α : Type} (read? : String → Option α) (key value : String) : Except ConfigError α :=
  match read? value with
  | some result => .ok result
  | none => .error (.invalidValue key value)

/-- The number given by a key, or the usual one. -/
def number {α : Type} (settings : Settings) (read? : String → Option α) (key : String) (usual : α) :
    Except ConfigError α :=
  match settings.get? key with
  | some value => readValue read? key value
  | none => .ok usual

/-- The number given by a key that must not be missing. -/
def requiredNumber {α : Type} (settings : Settings) (read? : String → Option α) (key : String) :
    Except ConfigError α := do
  let value ← settings.required key
  readValue read? key value

/-- Whether a switch is on; it is off if it is missing. -/
def isOn (settings : Settings) (key : String) : Except ConfigError Bool :=
  match (settings.get? key).map Text.lowerAscii with
  | none => .ok false
  | some "false" => .ok false
  | some "true" => .ok true
  | some other => .error (.invalidSwitch key other)

end Settings

/-- The greatest natural number that a setting may give. -/
def maximalCount : Nat := 18446744073709551615

/-- The tag of a run whose parameter file gives none. -/
def usualTag : String := "run-1"

/-- The usual parameters of the models. -/
structure UsualParameters (ω : Type) where
  /-- The usual parameters of BM25. -/
  bm25 : Bm25 ω
  /-- The usual parameters of Indri. -/
  indri : Indri ω

namespace Parameters

variable {ω : Type} [Arithmetic ω]

/-- The feedback that the settings ask for, under the given model. -/
def feedbackOf (settings : Settings) (model : Model ω) :
    Except ConfigError (Option (Feedback ω)) := do
  if ← settings.isOn "fb" then
    match model with
    | .indri _ =>
        let feedback : Feedback ω :=
          { documents := ← settings.requiredNumber (Number.readNat? maximalCount) "fbDocs"
            terms := ← settings.requiredNumber (Number.readNat? maximalCount) "fbTerms"
            mu := ← settings.requiredNumber Arithmetic.read? "fbMu"
            queryWeight := ← settings.requiredNumber Arithmetic.read? "fbOrigWeight"
            rankingFile := settings.get? "fbInitialRankingFile"
            expansionFile := settings.get? "fbExpansionQueryFile" }
        feedback.validate
        return some feedback
    | model => .error (.feedbackUnsupported model.name)
  else return none

/-- The parameters that the settings give. -/
def ofSettings (usual : UsualParameters ω) (settings : Settings) :
    Except ConfigError (Parameters ω) := do
  let bm25 : Bm25 ω :=
    { k1 := ← settings.number Arithmetic.read? "BM25:k_1" usual.bm25.k1
      b := ← settings.number Arithmetic.read? "BM25:b" usual.bm25.b
      k3 := ← settings.number Arithmetic.read? "BM25:k_3" usual.bm25.k3 }
  let indri : Indri ω :=
    { lambda := ← settings.number Arithmetic.read? "Indri:lambda" usual.indri.lambda
      mu := ← settings.number Arithmetic.read? "Indri:mu" usual.indri.mu }
  let model ← Model.ofName (← settings.required "retrievalAlgorithm") bm25 indri
  let feedback ← feedbackOf settings model
  return {
    indexPath := ← settings.required "indexPath"
    queryFile := ← settings.required "queryFilePath"
    rankingFile := ← settings.required "trecEvalOutputPath"
    tag := (settings.get? "runTag").getD usualTag
    model
    feedback }

/-- The parameters of a parameter file. -/
def ofText (usual : UsualParameters ω) (text : String) : Except ConfigError (Parameters ω) := do
  let settings ← Settings.ofText text
  ofSettings usual settings

end Parameters

/-- The usual parameters in double precision. -/
def UsualParameters.float : UsualParameters Float := ⟨Bm25.usual, Indri.usual⟩

end Retrieval
