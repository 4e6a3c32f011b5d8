import Retrieval.Cursor.Matching
import Retrieval.Cursor.Proximity
import Retrieval.Index

/-!
# Opening cursors on an index

Opening a cursor gives every term its inverted list and every list operator the list that it makes
of those of its operands, and forgets all movement. A list operator reads its operands to the end, or
as far as all of them have documents in common.
-/

namespace Retrieval

namespace Cursor

variable {ω : Type}

/-- The positions on the present document. -/
def positions (cursor : Cursor ω) : List Nat :=
  cursor.posting?.elim [] (·.positions)

/-- The union of the documents of the cursors: for each the positions of all cursors that have it,
in ascending order. -/
def unite : Nat → List (Cursor ω) → List Posting × List (Cursor ω)
  | 0, cursors => ([], cursors)
  | rounds + 1, cursors =>
      match earliest cursors with
      | none => ([], cursors)
      | some document =>
          let isPresent (cursor : Cursor ω) : Bool := cursor.current? == some document
          let positions := (cursors.filter isPresent).flatMap positions
          let (later, cursors) := unite rounds <| cursors.map fun cursor =>
            if isPresent cursor then cursor.advancePast document else cursor
          (.ofPositions document (positions.mergeSort (· ≤ ·)) :: later, cursors)

/-- The documents that all cursors have in common, each with the positions of every cursor. -/
def intersect : Nat → List (Cursor ω) → List (DocumentId × List (List Nat)) × List (Cursor ω)
  | 0, cursors => ([], cursors)
  | rounds + 1, cursors =>
      match matchAll id cursors with
      | (none, cursors) => ([], cursors)
      | (some document, cursors) =>
          let (later, rest) := intersect rounds (cursors.map (advancePast document))
          ((document, cursors.map positions) :: later, rest)

/-- The postings of the common documents in which `combine` finds positions. -/
def proximity (combine : List (List Nat) → List Nat) (cursors : List (Cursor ω)) :
    List Posting × List (Cursor ω) :=
  let (common, cursors) := intersect (remainingEach cursors + 1) cursors
  let postings := common.filterMap fun (document, positions) =>
    match combine positions with
    | [] => none
    | positions => some (.ofPositions document positions)
  (postings, cursors)

/-- The inverted list that a list operator makes of those of its operands, in the field of the
operator, with the operands as they are left. A proximity operator with a single operand has the
same list as that operand. -/
def materialize (field : Field) (operator : ListOperator) (operands : List (Cursor ω)) :
    InvertedList × List (Cursor ω) :=
  let ofPostings : List Posting × List (Cursor ω) → InvertedList × List (Cursor ω)
    | (postings, operands) => (.ofPostings field postings, operands)
  match operator, operands with
  | .syn, operands => ofPostings (unite (remainingEach operands + 1) operands)
  | _, [] => (.empty field, [])
  | _, [only] => (only.invertedList?.getD (.empty field), [only])
  | .near distance, operands => ofPostings (proximity (nearPositions distance) operands)
  | .window size, operands => ofPostings (proximity (windowPositions size) operands)

end Cursor

namespace SumStatistics

variable {ω : Type} [Arithmetic ω]

/-- The cursor with an inverted list that an operand of a sum stands for. -/
def listOf (operand : Cursor ω) : Option (Cursor ω) :=
  match operand with
  | .scoring .score (first :: _) _ _ _ => if first.isList then some first else none
  | .scoring .. => none
  | cursor => some cursor

/-- How often the key at a place occurs among the keys, counted at its first place only. -/
def repetitions (keys : List (Option String)) (place : Nat) (key : Option String) : Nat :=
  if key.isNone || (keys.take place).contains key then 0 else keys.count key

/-- The mean length of a field over the documents that have it. -/
def meanLength (index : Index) (field : Field) : ω :=
  if index.fieldCount field = 0 then 0
  else Arithmetic.ofNat (index.tokenCount field) / Arithmetic.ofNat (index.fieldCount field)

/-- The statistics of a sum. Operands with the same text count as the same. -/
def ofOperands (index : Index) (operands : List (Cursor ω)) : SumStatistics ω :=
  let lists := operands.map listOf
  let keys := lists.map fun list => list.map fun cursor => cursor.query.write
  { operands := (lists.zip keys).mapIdx fun place (list, key) =>
      { queryFrequency := repetitions keys place key
        meanLength := list.elim 0 fun cursor => meanLength index cursor.field }
    documents := Arithmetic.ofNat index.documentCount }

end SumStatistics

namespace Cursor

variable {ω : Type} [Arithmetic ω]

mutual

/-- Opens a cursor on an index, at the beginning of all lists. -/
def openOn (index : Index) : Cursor ω → Cursor ω
  | .term text field _ =>
      .term text field (some (.ofList (index.invertedList field text)))
  | .list operator operands weights _ =>
      let opened := openEachOn index operands
      let (result, operands) := materialize (fieldOf opened) operator opened
      .list operator operands weights (some (.ofList result))
  | .scoring operator operands weights _ _ =>
      let operands := openEachOn index operands
      let statistics :=
        if operator = .sum then some (SumStatistics.ofOperands index operands) else none
      .scoring operator operands weights none statistics

/-- Opens several cursors on an index. -/
def openEachOn (index : Index) : List (Cursor ω) → List (Cursor ω)
  | [] => []
  | cursor :: later => cursor.openOn index :: openEachOn index later

end

end Cursor

end Retrieval
