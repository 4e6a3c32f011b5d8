import Retrieval.Arguments
import Retrieval.Batch
import Retrieval.Statistics

/-!
# Running command lines

A command line is carried out on a host. The result is an exit code and the report of a failure: a
line that is not understood exits with two, a command that fails with one.
-/

namespace Retrieval

/-- How a command line ends. -/
structure Exit where
  /-- The exit code. -/
  code : Nat
  /-- The report of the failure, empty if there is none. -/
  report : String
deriving DecidableEq, Repr

namespace Shell

/-- The usage of the command line. -/
def usage : String :=
  "\n".intercalate
    ["Structured query evaluation with Boolean, BM25 and Indri ranking",
     "",
     "Usage: [--no-color] <COMMAND>",
     "",
     "Commands:",
     "  run      Evaluate every query of a parameter file and write the ranking file",
     "  search   Evaluate a single query",
     "  explain  Print the parsed and optimized operator tree of a query",
     "  stats    Show index statistics",
     ""]

variable {m : Type → Type} [Monad m] [Host m]

/-- Prints a text. -/
def print (text : String) : ExceptT Failure m Unit :=
  (Host.print text : m Unit)

/-- Opens an index. -/
def openIndex (path : FilePath) : ExceptT Failure m Index := do
  match ← (Batch.openIndex path : m (Except Error Index)) with
  | .ok index => return index
  | .error cause => throw (.during (.openIndex path) (.error cause))

/-- The model that a command chooses. -/
def model (choice : ModelChoice) : ExceptT Failure m (Model Float) :=
  match Model.ofName choice.name choice.bm25 choice.indri with
  | .ok model => return model
  | .error cause => throw (.error (.config cause))

/-- Carries out a command. -/
def execute (colors : Bool) : Command → ExceptT Failure m Unit
  | .run path printing => do
      let loaded ← (Batch.loadParameters .float path : m (Except Error (Parameters Float)))
      match loaded with
      | .error cause => throw (.during (.loadParameters path) (.error cause))
      | .ok parameters => do
          let _ ← Batch.run parameters ⟨printing, colors⟩
          return
  | .search query path limit choice => do
      let model ← model choice
      let index ← openIndex path
      match Batch.searchRows (.ofIndex index model) query limit with
      | .ok rows => print (Row.display colors rows)
      | .error cause => throw (.error cause)
  | .explain query path choice => do
      let model ← model choice
      let analyzer ← match path with
        | some path => do
            let index ← openIndex path
            pure index.analyzer
        | none => pure Analyzer.english
      match Query.parse (ω := Float) model.defaultOperator analyzer query with
      | .error cause => throw (.query cause)
      | .ok tree => do
          print ("parsed:    " ++ tree.write ++ "\n")
          print ("optimized: " ++ (tree.prune.elim "(matches nothing)" Query.write) ++ "\n")
  | .stats path => do
      let index ← openIndex path
      print (Statistics.report path index)

/-- Carries out the command line with the given arguments; `colors` says that the terminal shows
colors. -/
def run (colors : Bool) (arguments : List String) : m Exit := do
  match Arguments.read arguments with
  | .error .refused => return ⟨2, ""⟩
  | .error .usage =>
      Host.print usage
      return ⟨0, ""⟩
  | .ok line =>
      match ← (execute (colors && !line.noColor) line.command).run with
      | .ok () => return ⟨0, ""⟩
      | .error failure => return ⟨1, failure.report⟩

end Shell

end Retrieval
