import Retrieval.Index
import Retrieval.Json.Read

/-!
# Collections in files

The file of an index is a JSON document: an object with the stopwords, which may be missing, and the
documents; a document is an object with its name and its fields, which may be missing. Both objects
may also be written as arrays of these parts in this order. Other members are passed over, no part may
be given twice, and of two equal field names the later counts.
-/

namespace Retrieval

/-- The documents and stopwords of an index file. -/
structure Collection where
  /-- The documents, in order. -/
  documents : List Document
  /-- The words that were left out when the documents were cut into tokens. -/
  stopwords : List String

namespace Collection

open Json

/-- The text of a value. -/
def text? : Value → Option String
  | .text written => written.decode?
  | _ => none

/-- The texts of an array. -/
def texts? : Value → Option (List String)
  | .array elements => elements.mapM text?
  | _ => none

/-- The fields of a document. -/
def fields? : Value → Option (FieldTable (List String))
  | .object members => members.foldlM (fun fields (key, value) => do
      let field ← Field.ofName? (← key.decode?)
      return fields.set field (← texts? value)) (.fill [])
  | _ => none

/-- The two parts of an object with these keys, each given at most once; other members are passed
over. -/
def parts? (first second : String) :
    List (WrittenText × Value) → Option (Option Value × Option Value)
  | [] => some (none, none)
  | (key, value) :: later => do
      let key ← key.decode?
      let (left, right) ← parts? first second later
      if key = first then
        guard left.isNone
        return (some value, right)
      else if key = second then
        guard right.isNone
        return (left, some value)
      else return (left, right)

/-- The two parts of an object or of an array in their place. -/
def pair? (first second : String) : Value → Option (Option Value × Option Value)
  | .object members => parts? first second members
  | .array [] => some (none, none)
  | .array [left] => some (some left, none)
  | .array [left, right] => some (some left, some right)
  | _ => none

/-- A document. -/
def document? (value : Value) : Option Document := do
  let (identifier, fields) ← pair? "id" "fields" value
  return ⟨← text? (← identifier), ← fields.elim (some (.fill [])) fields?⟩

/-- The documents of an array. -/
def documents? : Value → Option (List Document)
  | .array elements => elements.mapM document?
  | _ => none

/-- A collection. -/
def ofValue? (value : Value) : Option Collection := do
  let (stopwords, documents) ← pair? "stopwords" "documents" value
  return ⟨← documents? (← documents), ← stopwords.elim (some []) texts?⟩

/-- The collection of an index file. -/
def ofBytes? (bytes : ByteArray) : Option Collection := do
  ofValue? (← Json.read? bytes.toList)

/-- The index of a collection. -/
def index (collection : Collection) : Index :=
  .ofDocuments collection.documents collection.stopwords

end Collection

end Retrieval
