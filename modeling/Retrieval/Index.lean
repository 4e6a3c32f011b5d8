import Std.Data.HashMap
import Retrieval.Analyzer
import Retrieval.File
import Retrieval.Number.Numeral
import Retrieval.Posting
import Retrieval.Tally

/-!
# The index of a collection

An index answers questions about a collection of documents whose fields are lists of tokens: the
inverted list of a term, the lengths of fields, the terms of a document, and the names of documents.
Documents are numbered by their place in the collection.
-/

namespace Retrieval

/-- A document, its fields already cut into tokens. -/
structure Document where
  /-- The name of the document. -/
  identifier : String
  /-- The tokens of each field. -/
  fields : FieldTable (List String)

/-- Why an index cannot answer. -/
inductive IndexError where
  /-- There is no document with this number. -/
  | documentOutOfRange (document : DocumentId)
  /-- There is no document with this name. -/
  | unknownIdentifier (identifier : String)
  /-- The file of the index cannot be read. -/
  | unreadable (path : FilePath) (cause : FileError)
  /-- A sum is to be scored that has not been opened on an index. -/
  | unopenedSum
deriving DecidableEq, Repr

namespace IndexError

/-- The wording of a failure. -/
def message : IndexError → String
  | .documentOutOfRange document => "document " ++ Number.writeNat document ++ " is out of range"
  | .unknownIdentifier identifier => "unknown external document id '" ++ identifier ++ "'"
  | .unreadable path cause => "cannot open index " ++ path ++ ": " ++ cause.message
  | .unopenedSum => "#sum scored before initialize"

end IndexError

/-- The totals of a field over the collection. -/
structure FieldTotals where
  /-- The number of tokens. -/
  tokens : Nat
  /-- The number of documents in which the field is not empty. -/
  documents : Nat
deriving DecidableEq, Repr

/-- A distinct token of a field of a document. -/
structure TermEntry where
  /-- The token. -/
  stem : String
  /-- How often it occurs in the field of the document. -/
  frequency : Nat
  /-- How often it occurs in the field over the collection. -/
  collectionFrequency : Nat
deriving DecidableEq, Repr

/-- The distinct tokens of a field of a document. -/
structure TermVector where
  /-- The document. -/
  document : DocumentId
  /-- The field. -/
  field : Field
  /-- The number of tokens. -/
  length : Nat
  /-- The distinct tokens, in the order of their first occurrence. -/
  entries : List TermEntry
deriving DecidableEq, Repr

namespace TermVector

/-- How often a token occurs. -/
def frequencyOf (vector : TermVector) (stem : String) : Nat :=
  match vector.entries.find? fun entry => entry.stem = stem with
  | some entry => entry.frequency
  | none => 0

end TermVector

/-- The inverted lists by field and term. -/
abbrev ListTable := Std.HashMap (Field × String) InvertedList

namespace ListTable

/-- The inverted list of a term, which is empty where nothing has been entered. -/
def find (lists : ListTable) (field : Field) (term : String) : InvertedList :=
  lists.getD (field, term) (.empty field)

/-- Enters the tokens of a field of a document, from the last to the first. -/
def enterTokens (document : DocumentId) (field : Field) (tokens : List String)
    (lists : ListTable) : ListTable :=
  tokens.zipIdx.foldr (fun (token, position) lists =>
    lists.insert (field, token) ((lists.find field token).enter document position)) lists

/-- Enters all fields of a document. -/
def enterDocument (document : DocumentId) (fields : FieldTable (List String))
    (lists : ListTable) : ListTable :=
  Field.all.foldr (fun field lists => lists.enterTokens document field (fields.get field)) lists

/-- The lists of a collection, its documents entered from the last to the first. -/
def ofDocuments (documents : List Document) : ListTable :=
  documents.zipIdx.foldr (fun (document, number) lists =>
    lists.enterDocument number document.fields) ∅

end ListTable

/-- Adds the length of a field of one document to the totals. -/
def FieldTotals.add (totals : FieldTotals) (length : Nat) : FieldTotals :=
  if length = 0 then totals else ⟨totals.tokens + length, totals.documents + 1⟩

/-- The totals of a field over the documents. -/
def FieldTotals.ofDocuments (documents : List Document) (field : Field) : FieldTotals :=
  documents.foldl (fun totals document => totals.add (document.fields.get field).length) ⟨0, 0⟩

/-- A collection made ready for questions. -/
structure Index where
  /-- The documents, by number. -/
  documents : Array Document
  /-- The inverted lists. -/
  lists : ListTable
  /-- The totals of each field. -/
  totals : FieldTable FieldTotals
  /-- The numbers of the documents by name; of two documents with one name the later counts. -/
  numbers : Std.HashMap String DocumentId
  /-- The words that were left out when the documents were cut into tokens. -/
  stopwords : List String

namespace Index

/-- The index of a collection. -/
def ofDocuments (documents : List Document) (stopwords : List String) : Index :=
  let totals := FieldTotals.ofDocuments documents
  { documents := documents.toArray
    lists := ListTable.ofDocuments documents
    totals := ⟨totals .body, totals .title, totals .url, totals .keywords, totals .inlink⟩
    numbers := documents.zipIdx.foldl (fun numbers (document, number) =>
      numbers.insert document.identifier number) ∅
    stopwords }

/-- The analyzer that leaves out the same words as the documents do. -/
def analyzer (index : Index) : Analyzer := .ofStopwords index.stopwords

/-- The number of documents. -/
def documentCount (index : Index) : Nat := index.documents.size

/-- The number of tokens of a field over the collection. -/
def tokenCount (index : Index) (field : Field) : Nat := (index.totals.get field).tokens

/-- The number of documents in which a field is not empty. -/
def fieldCount (index : Index) (field : Field) : Nat := (index.totals.get field).documents

/-- The number of distinct terms of a field. -/
def vocabularySize (index : Index) (field : Field) : Nat :=
  index.lists.fold (fun size (entry, _) _ => if entry = field then size + 1 else size) 0

/-- The inverted list of a term; empty for a term that does not occur. -/
def invertedList (index : Index) (field : Field) (term : String) : InvertedList :=
  index.lists.find field term

/-- The document with a number. -/
def document (index : Index) (number : DocumentId) : Except IndexError Document :=
  match index.documents[number]? with
  | some document => .ok document
  | none => .error (.documentOutOfRange number)

/-- The name of a document. -/
def identifier (index : Index) (number : DocumentId) : Except IndexError String :=
  (index.document number).map (·.identifier)

/-- The number of the document with a name. -/
def number (index : Index) (identifier : String) : Except IndexError DocumentId :=
  match index.numbers[identifier]? with
  | some number => .ok number
  | none => .error (.unknownIdentifier identifier)

/-- The number of tokens in a field of a document. -/
def fieldLength (index : Index) (field : Field) (number : DocumentId) : Except IndexError Nat :=
  (index.document number).map fun document => (document.fields.get field).length

/-- The distinct tokens of a field of a document. -/
def termVector (index : Index) (field : Field) (number : DocumentId) :
    Except IndexError TermVector :=
  (index.document number).map fun document =>
    let tokens := document.fields.get field
    let counts := tally tokens
    { document := number
      field
      length := tokens.length
      entries := (firstOccurrences tokens).map fun stem =>
        ⟨stem, counts.getD stem 0, (index.invertedList field stem).collectionFrequency⟩ }

end Index

end Retrieval
