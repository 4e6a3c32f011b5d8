import Retrieval.Index
import Retrieval.Model
import Retrieval.Query.Parse

/-!
# Failures

All reasons for which a question to the library can fail, with their wording.
-/

namespace Retrieval

/-- Why a question fails. -/
inductive Error where
  /-- Settings are refused. -/
  | config (cause : ConfigError)
  /-- A text is no query. -/
  | query (cause : QueryError)
  /-- The model has no scores for an operator. -/
  | unsupported (operator model : String)
  /-- The index cannot answer. -/
  | index (cause : IndexError)
  /-- A file cannot be read or written. -/
  | file (cause : FileError)
  /-- The file of an index can be opened but not read. -/
  | unreadCollection (cause : FileError)
  /-- The file of an index does not have the form of a collection. -/
  | malformedCollection
deriving DecidableEq, Repr

namespace Error

/-- The wording of a failure. -/
def message : Error → String
  | .config cause => "config error: " ++ cause.message
  | .query cause => "parse error: " ++ cause.message
  | .unsupported operator model =>
      "the " ++ operator ++ " operator is not supported by the " ++ model ++ " retrieval model"
  | .index cause => "index access error: " ++ cause.message
  | .file cause => cause.message
  | .unreadCollection cause => cause.message
  | .malformedCollection => "json error"

end Error

end Retrieval
