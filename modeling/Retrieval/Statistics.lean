import Retrieval.Index
import Retrieval.Number.Arithmetic

/-!
# Statistics of an index

A report on an index: the numbers of documents and stopwords, and a table of its fields with the
number of documents, the number of tokens, the mean length and the size of the vocabulary of each.
-/

namespace Retrieval.Statistics

/-- A text filled up with blanks at its beginning. -/
def padLeft (width : Nat) (text : String) : String :=
  String.ofList (List.replicate (width - text.length) ' ') ++ text

/-- A text filled up with blanks at its end. -/
def padRight (width : Nat) (text : String) : String :=
  text ++ String.ofList (List.replicate (width - text.length) ' ')

/-- A line of the table. -/
def tableLine (field documents tokens meanLength vocabulary : String) : String :=
  "  " ++ " ".intercalate [padRight 10 field, padLeft 10 documents, padLeft 14 tokens,
    padLeft 12 meanLength, padLeft 12 vocabulary]

/-- The line of a field, if any document has it. -/
def fieldLine? (index : Index) (field : Field) : Option String :=
  let documents := index.fieldCount field
  let tokens := index.tokenCount field
  if documents = 0 then none
  else
    let meanLength := Float.ofNat tokens / Float.ofNat documents
    some <| tableLine field.name (Number.writeNat documents) (Number.writeNat tokens)
      (Number.writeFixed 2 meanLength) (Number.writeNat (index.vocabularySize field))

/-- The report on the index that was opened at a path. -/
def report (path : FilePath) (index : Index) : String :=
  let lines :=
    ["Index Statistics",
     "================",
     "",
     "Index location:   " ++ path,
     "Document count:   " ++ Number.writeNat index.documentCount,
     "Stopwords:        " ++ Number.writeNat index.analyzer.stopwordCount,
     "",
     tableLine "field" "docs" "tokens" "avg length" "vocabulary"]
    ++ Field.all.filterMap (fieldLine? index)
  String.join (lines.map (· ++ "\n"))

end Retrieval.Statistics
