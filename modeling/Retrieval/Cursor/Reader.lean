import Retrieval.Posting

/-!
# Readers of inverted lists

A reader stands on a posting of an inverted list and, within it, on a position. It only moves
forward. When it comes to another posting it stands on the first position there.
-/

namespace Retrieval

/-- A place in an inverted list. -/
structure Reader where
  /-- The whole list. -/
  list : InvertedList
  /-- The postings from the present one on. -/
  postings : List Posting
  /-- The positions of the present posting from the present one on. -/
  positions : List Nat
deriving DecidableEq, Repr

namespace Reader

/-- The positions of the first of some postings. -/
def firstPositions : List Posting → List Nat
  | [] => []
  | posting :: _ => posting.positions

/-- The reader before the given postings of a list. -/
def enter (list : InvertedList) (postings : List Posting) : Reader :=
  ⟨list, postings, firstPositions postings⟩

/-- The reader at the beginning of a list. -/
def ofList (list : InvertedList) : Reader := enter list list.postings

/-- The present posting. -/
def posting? (reader : Reader) : Option Posting := reader.postings.head?

/-- The present document. -/
def current? (reader : Reader) : Option DocumentId := reader.posting?.map (·.document)

/-- The number of occurrences in the present document. -/
def frequency (reader : Reader) : Nat :=
  match reader.posting? with
  | some posting => posting.frequency
  | none => 0

/-- Moves past the postings whose documents satisfy `passed`. A reader that does not move keeps its
position. -/
def skip (passed : DocumentId → Bool) (reader : Reader) : Reader :=
  match reader.postings with
  | [] => reader
  | posting :: later =>
      if passed posting.document then
        enter reader.list (later.dropWhile fun posting => passed posting.document)
      else reader

/-- The present position. -/
def position? (reader : Reader) : Option Nat := reader.positions.head?

/-- Moves to the next position. -/
def nextPosition (reader : Reader) : Reader :=
  { reader with positions := reader.positions.tail }

/-- Moves past the positions up to a given one. -/
def skipPositions (position : Nat) (reader : Reader) : Reader :=
  { reader with positions := reader.positions.dropWhile (· ≤ position) }

/-- Goes back to the first position of the present posting. -/
def resetPositions (reader : Reader) : Reader :=
  enter reader.list reader.postings

end Reader

end Retrieval
