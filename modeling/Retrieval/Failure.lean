import Retrieval.Error

/-!
# Failures of commands

A command that fails says what it was about to do, and why that failed. The links of a failure are the
texts from the outermost purpose to the innermost reason.
-/

namespace Retrieval

/-- What a command was about to do. -/
inductive Purpose where
  /-- Reading a parameter file. -/
  | loadParameters (path : FilePath)
  /-- Opening an index. -/
  | openIndex (path : FilePath)
  /-- Reading a file of queries. -/
  | readQueries (path : FilePath)
  /-- Reading first rankings. -/
  | readRankings (path : FilePath)
  /-- Making a file. -/
  | create (path : FilePath)
  /-- Opening a file to add to it. -/
  | append (path : FilePath)
  /-- Evaluating a query of a batch. -/
  | evaluate (number text : String)
deriving DecidableEq, Repr

namespace Purpose

/-- The wording of the failure of a purpose. -/
def message : Purpose → String
  | .loadParameters path => "Failed to load parameters from " ++ path
  | .openIndex path => "Failed to open index " ++ path
  | .readQueries path => "Failed to read query file " ++ path
  | .readRankings path => "Failed to read initial rankings " ++ path
  | .create path => "Failed to create " ++ path
  | .append path => "Failed to open " ++ path
  | .evaluate number text => "Query " ++ number ++ " failed: '" ++ text ++ "'"

end Purpose

/-- Why a command fails. -/
inductive Failure where
  /-- A question to the library fails. -/
  | error (cause : Error)
  /-- A text is no query. -/
  | query (cause : QueryError)
  /-- A purpose fails. -/
  | during (purpose : Purpose) (cause : Failure)
deriving Repr

namespace Failure

/-- The failure of a file operation. -/
def file (cause : FileError) : Failure := .error (.file cause)

/-- The texts from the outermost purpose to the innermost reason. A text that is no query is a reason
of its own. -/
def links : Failure → List String
  | .error (.query cause) => [(Error.query cause).message, cause.message]
  | .error cause => [cause.message]
  | .query cause => [cause.message]
  | .during purpose cause => purpose.message :: cause.links

/-- A text with the lines after its first one indented. -/
def indent (blanks : String) (text : String) : String :=
  ("\n" ++ blanks).intercalate (text.splitOn "\n")

/-- The reasons below the outermost link: numbered if there are several. -/
def writeReasons : List String → List String
  | [] => []
  | [reason] => ["    " ++ indent "    " reason]
  | reasons => reasons.mapIdx fun place reason =>
      let number := Number.writeNat place
      String.ofList (List.replicate (5 - number.length) ' ') ++ number ++ ": "
        ++ indent "       " reason

/-- The report of a failure. -/
def report (failure : Failure) : String :=
  match failure.links with
  | [] => "Error: \n"
  | outermost :: reasons =>
      let below := if reasons.isEmpty then [] else ["", "Caused by:"] ++ writeReasons reasons
      "\n".intercalate (("Error: " ++ outermost) :: below) ++ "\n"

end Failure

end Retrieval
