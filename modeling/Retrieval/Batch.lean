import Retrieval.Buffer
import Retrieval.Collection
import Retrieval.Failure
import Retrieval.Host
import Retrieval.Parameters
import Retrieval.Row

/-!
# Batch runs

A batch run evaluates all queries of a file and writes one ranking file, in the order of the queries.
The files are made before the first query is evaluated, and they receive rows only when all queries
have been evaluated. The rows reach the ranking file through a buffer, which shows only if that file is
the file of the added terms as well.
-/

namespace Retrieval

/-- A line of a query file. -/
structure QueryLine where
  /-- The number of the query. -/
  number : String
  /-- The text of the query. -/
  text : String
deriving DecidableEq, Repr

namespace QueryLine

/-- The query of a line: its number stands before the first colon. -/
def ofLine (line : String) : Except QueryError QueryLine :=
  match Text.cut ':' line with
  | some (number, text) => .ok ⟨Text.trim number, Text.trim text⟩
  | none => .error (.missingNumber line)

/-- The queries of a query file. Blank lines are passed over. -/
def ofText (text : String) : Except QueryError (List QueryLine) :=
  ((Text.lines text).filter fun line => !Text.isBlankText line).mapM ofLine

/-- The line of a query. -/
def write (line : QueryLine) : String :=
  line.number ++ ": " ++ line.text ++ "\n"

end QueryLine

/-- What comes of a query of a batch. -/
structure Outcome (ω : Type) where
  /-- The number of the query. -/
  number : String
  /-- The rows of its best documents. -/
  rows : List (Row ω)
  /-- The query for the added terms, if there was feedback. -/
  expansion : Option String

/-- The totals of a batch run. -/
structure Summary where
  /-- The number of queries. -/
  queries : Nat
  /-- The number of rows. -/
  rows : Nat
deriving DecidableEq, Repr

/-- Whether and how rows are printed. -/
structure Printing where
  /-- Rows are printed. -/
  enabled : Bool
  /-- Printed rows are highlighted. -/
  highlighted : Bool

namespace Batch

variable {ω : Type} [Arithmetic ω]

/-- The results of a query and the query for the added terms. -/
def answer (engine : Engine ω) (parameters : Parameters ω) (firsts : FirstRankings ω)
    (line : QueryLine) : Except Error (Ranking ω × Option String) :=
  match parameters.feedback with
  | none => (engine.search line.text).map fun ranking => (ranking, none)
  | some feedback =>
      (engine.searchWithFeedback feedback line.text firsts[line.number]?).map fun expansion =>
        (expansion.ranking, some expansion.expansion)

/-- Evaluates a query. -/
def evaluate (engine : Engine ω) (parameters : Parameters ω) (firsts : FirstRankings ω)
    (line : QueryLine) : Except Error (Outcome ω) := do
  let (ranking, expansion) ← answer engine parameters firsts line
  match ranking.rows engine.index line.number parameters.tag maximalRows with
  | .ok rows => return ⟨line.number, rows, expansion⟩
  | .error cause => .error (.index cause)

/-- Evaluates queries in order, up to the first failure. -/
def evaluateAll (engine : Engine ω) (parameters : Parameters ω) (firsts : FirstRankings ω)
    (lines : List QueryLine) : Except Failure (List (Outcome ω)) :=
  lines.mapM fun line =>
    match evaluate engine parameters firsts line with
    | .ok outcome => .ok outcome
    | .error cause => .error (.during (.evaluate line.number line.text) (.error cause))

variable {m : Type → Type} [Monad m] [Host m]

/-- The result of a file operation, whose failure is that of a purpose. -/
def attempt {α : Type} (purpose : Purpose) (action : m (Except FileError α)) :
    ExceptT Failure m α := do
  match ← (action : m (Except FileError α)) with
  | .ok value => return value
  | .error cause => throw (.during purpose (.file cause))

/-- Opens the index in a file or in the file `index.json` of a directory. -/
def openIndex (path : FilePath) : m (Except Error Index) := do
  let file := if ← Host.isDirectory path then FilePath.join path "index.json" else path
  match ← Host.read file with
  | .ok bytes =>
      match Collection.ofBytes? bytes with
      | some collection => return .ok collection.index
      | none => return .error .malformedCollection
  | .error .isADirectory => return .error (.unreadCollection .isADirectory)
  | .error cause => return .error (.index (.unreadable file cause))

/-- Reads the queries of a query file. -/
def readQueries (path : FilePath) : ExceptT Failure m (List QueryLine) := do
  let text ← attempt (.readQueries path) (Host.readText path)
  match QueryLine.ofText text with
  | .ok lines => return lines
  | .error cause => throw (.query cause)

/-- Reads the first rankings of a file. -/
def readRankings (index : Index) (path : FilePath) : m (Except FileError (FirstRankings ω)) := do
  return (← Host.readText path).map (FirstRankings.ofText index)

/-- Writes a text into the ranking file. -/
def writeRanking (parameters : Parameters ω) (position : Nat) (text : String) :
    ExceptT Failure m Unit :=
  if text.isEmpty then return
  else attempt (.create parameters.rankingFile)
    (Host.writeAt parameters.rankingFile position text)

/-- Prints and notes the rows and added terms of outcomes; the ranking file is written up to
`position`, and `waiting` comes next. What still waits is written at the end, or when a file cannot be
opened. -/
def record (parameters : Parameters ω) (printing : Printing) (position : Nat) (waiting : String) :
    List (Outcome ω) → ExceptT Failure m Unit
  | [] => writeRanking parameters position waiting
  | outcome :: later => do
      let buffer := Buffer.addAll ⟨"", waiting⟩ (outcome.rows.flatMap Row.parts)
      writeRanking parameters position buffer.released
      let position := position + buffer.released.utf8ByteSize
      if printing.enabled then
        (Host.print (Row.display printing.highlighted outcome.rows) : m Unit)
      match parameters.feedback.bind (·.expansionFile), outcome.expansion with
      | some path, some expansion =>
          match ← (Host.append path (QueryLine.write ⟨outcome.number, expansion⟩) :
              m (Except FileError Unit)) with
          | .ok () => record parameters printing position buffer.waiting later
          | .error cause =>
              writeRanking parameters position buffer.waiting
              throw (.during (.append path) (.file cause))
      | _, _ => record parameters printing position buffer.waiting later

/-- Evaluates all queries of the query file and writes the ranking file and, with feedback, the file
of the added terms. -/
def run (parameters : Parameters ω) (printing : Printing) : ExceptT Failure m Summary := do
  let index ← match ← (openIndex parameters.indexPath : m (Except Error Index)) with
    | .ok index => pure index
    | .error cause => throw (.during (.openIndex parameters.indexPath) (.error cause))
  let engine := Engine.ofIndex index parameters.model
  let lines ← readQueries parameters.queryFile
  let firsts : FirstRankings ω ← match parameters.feedback.bind (·.rankingFile) with
    | some path => attempt (.readRankings path) (readRankings index path)
    | none => pure ∅
  attempt (.create parameters.rankingFile) (Host.create parameters.rankingFile)
  if let some path := parameters.feedback.bind (·.expansionFile) then
    attempt (.create path) (Host.create path)
  let outcomes ← match evaluateAll engine parameters firsts lines with
    | .ok outcomes => pure outcomes
    | .error failure => throw failure
  record parameters printing 0 "" outcomes
  return ⟨lines.length, (outcomes.flatMap (·.rows)).length⟩

/-- Reads a parameter file. -/
def loadParameters (usual : UsualParameters ω) (path : FilePath) :
    m (Except Error (Parameters ω)) := do
  match ← Host.readText path with
  | .error cause => return .error (.config (.unreadable path cause))
  | .ok text =>
      match Parameters.ofText usual text with
      | .ok parameters => return .ok parameters
      | .error cause => return .error (.config cause)

/-- The rows of the best documents of a single query. -/
def searchRows (engine : Engine ω) (text : String) (limit : Nat) : Except Error (List (Row ω)) := do
  let ranking ← engine.search text
  match ranking.rows engine.index "0" "search" limit with
  | .ok rows => return rows
  | .error cause => .error (.index cause)

end Batch

end Retrieval
