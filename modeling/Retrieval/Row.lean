import Retrieval.Index
import Retrieval.Number.Parts
import Retrieval.Ranking

/-!
# Rows of a ranking

The best documents of a query are written as rows of six columns: query number, a constant, document,
rank, score and run tag. A query without results has one row with a placeholder for the document. On
a terminal the query number, the document and the score are highlighted.
-/

namespace Retrieval

/-- The greatest number of rows that a query has in a ranking file. -/
def maximalRows : Nat := 100

/-- The document of the row of a query without results. -/
def placeholderDocument : String := "dummy"

/-- One row of a ranking. -/
structure Row (ω : Type) where
  /-- The number of the query. -/
  query : String
  /-- The name of the document. -/
  document : String
  /-- The rank, from one on. -/
  rank : Nat
  /-- The score. -/
  score : ω
  /-- The tag of the run. -/
  tag : String
deriving Repr

namespace Row

variable {ω : Type} [Arithmetic ω]

/-- The text of a row. -/
def write (row : Row ω) : String :=
  "\t".intercalate [row.query, "Q0", row.document, Number.writeNat row.rank,
    Arithmetic.write row.score, row.tag]

/-- The text of rows, each on a line of its own. -/
def writeAll (rows : List (Row ω)) : String :=
  String.join (rows.map fun row => row.write ++ "\n")

/-- The parts in which the line of a row is handed on. -/
def parts (row : Row ω) : List String :=
  [row.query, "\tQ0\t", row.document, "\t", Number.writeNat row.rank, "\t"]
    ++ (Number.parts (Arithmetic.write row.score).toList).map String.ofList
    ++ ["\t", row.tag, "\n"]

theorem join_map_ofList (parts : List (List Char)) :
    String.join (parts.map String.ofList) = String.ofList parts.flatten := by
  induction parts with
  | nil => rfl
  | cons part later ih => simp [ih]

@[simp]
theorem join_parts (row : Row ω) : String.join row.parts = row.write ++ "\n" := by
  simp only [parts, write, String.join_append, join_map_ofList, Number.flatten_parts]
  simp only [← String.toList_inj]
  simp

/-- The escape sequence that ends highlighting. -/
def plain : String := "\x1b[0m"

/-- A text highlighted by an escape sequence. -/
def highlight (style text : String) : String :=
  plain ++ style ++ text ++ plain

/-- The text of a row with its query number, document and score highlighted. -/
def writeHighlighted (row : Row ω) : String :=
  "\t".intercalate [highlight "\x1b[35m" row.query, "Q0",
    highlight "\x1b[1m\x1b[32m" row.document, Number.writeNat row.rank,
    highlight "\x1b[36m" (Arithmetic.write row.score), row.tag]

/-- The text of rows for a terminal. -/
def display (highlighted : Bool) (rows : List (Row ω)) : String :=
  if highlighted then String.join (rows.map fun row => row.writeHighlighted ++ "\n")
  else writeAll rows

end Row

variable {ω : Type} [Arithmetic ω]

/-- The rows of the best documents of a sorted ranking, at most `limit` of them; the placeholder row
if the ranking is empty. -/
def Ranking.rows (index : Index) (query tag : String) (limit : Nat) (ranking : Ranking ω) :
    Except IndexError (List (Row ω)) :=
  if ranking.isEmpty then .ok [⟨query, placeholderDocument, 1, 0, tag⟩]
  else (ranking.take limit).zipIdx.mapM fun (scored, place) =>
    (index.identifier scored.document).map fun document =>
      ⟨query, document, place + 1, scored.score, tag⟩

end Retrieval
