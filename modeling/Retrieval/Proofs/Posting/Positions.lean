import Mathlib.Data.List.Sort
import Retrieval.Proofs.Posting.Intersection

/-!
# Positions and occurrences by document

What a list has in a document, its positions and their number, is looked up by the document. A list
with ascending documents is determined by its postings as a set. A sorted list has its positions in
strictly ascending order besides, and counts them.
-/

namespace Retrieval

namespace InvertedList

variable {list other : InvertedList} {posting : Posting} {document : DocumentId} {position : Nat}

theorem mem_documents_of_mem_positionsAt (member : position ∈ list.positionsAt document) :
    document ∈ list.documents := by
  rw [positionsAt] at member
  cases found : list.postings.find? (·.document == document) with
  | none => simp [found] at member
  | some posting =>
      exact mem_documents.mpr
        ⟨posting, List.mem_of_find?_eq_some found, by simpa using List.find?_some found⟩

theorem positionsAt_eq_nil (absent : document ∉ list.documents) : list.positionsAt document = [] :=
  List.eq_nil_iff_forall_not_mem.mpr fun _ member =>
    absent (mem_documents_of_mem_positionsAt member)

theorem positionsAt_pairwise {relation : Nat → Nat → Prop}
    (sorted : ∀ posting ∈ list.postings, posting.positions.Pairwise relation)
    (document : DocumentId) : (list.positionsAt document).Pairwise relation := by
  rw [positionsAt]
  cases found : list.postings.find? (·.document == document) with
  | none => exact .nil
  | some posting => exact sorted posting (List.mem_of_find?_eq_some found)

theorem Ascending.positionsAt_eq (ascending : list.Ascending) (member : posting ∈ list.postings) :
    list.positionsAt posting.document = posting.positions := by
  rw [positionsAt, ascending.find?_eq member, Option.elim_some]

theorem frequencyAt_eq
    (counts : ∀ posting ∈ list.postings, posting.frequency = posting.positions.length)
    (document : DocumentId) : list.frequencyAt document = (list.positionsAt document).length := by
  rw [frequencyAt, positionsAt]
  cases found : list.postings.find? (·.document == document) with
  | none => rfl
  | some posting => exact counts posting (List.mem_of_find?_eq_some found)

/-- Ascending lists with the same postings have them in the same order. -/
theorem Ascending.postings_eq (ascending : list.Ascending) (otherAscending : other.Ascending)
    (same : ∀ posting, posting ∈ list.postings ↔ posting ∈ other.postings) :
    list.postings = other.postings := by
  let before (earlier later : Posting) : Prop := earlier.document < later.document
  have : Std.Irrefl before := ⟨fun posting => Nat.lt_irrefl posting.document⟩
  have : Std.Antisymm before := ⟨fun _ _ less more => absurd more (Nat.lt_asymm less)⟩
  exact List.Pairwise.eq_of_mem_iff (r := before) ascending otherAscending same

/-- Documents and positions ascend strictly, and each posting counts its positions. -/
structure Sorted (list : InvertedList) : Prop where
  /-- The documents ascend strictly. -/
  ascending : list.Ascending
  /-- The positions ascend strictly. -/
  positions : ∀ posting ∈ list.postings, posting.positions.Pairwise (· < ·)
  /-- Each posting counts its positions. -/
  counts : ∀ posting ∈ list.postings, posting.frequency = posting.positions.length

/-- A list of one document is sorted if its positions are. -/
theorem sorted_singleton (field : Field) (document : DocumentId) {positions : List Nat}
    (ascend : positions.Pairwise (· < ·)) :
    (ofPostings field [.ofPositions document positions]).Sorted := by
  constructor <;> simp [Ascending, Posting.ofPositions, ascend]

/-- The positions that the lists have in a document, one row for each list. -/
def rowsAt (document : DocumentId) (lists : List InvertedList) : List (List Nat) :=
  lists.map (positionsAt document)

theorem rowsAt_pairwise {relation : Nat → Nat → Prop} {lists : List InvertedList}
    (sorted : ∀ list ∈ lists, ∀ posting ∈ list.postings, posting.positions.Pairwise relation)
    (document : DocumentId) : ∀ positions ∈ rowsAt document lists, positions.Pairwise relation :=
  List.forall_mem_map.mpr fun list member => positionsAt_pairwise (sorted list member) document

/-- The list has a posting for each document of all lists in which `combine` finds positions, with these
positions. -/
def Combines (combine : List (List Nat) → List Nat) (lists : List InvertedList)
    (list : InvertedList) : Prop :=
  ∀ posting, posting ∈ list.postings ↔
    (∀ list ∈ lists, posting.document ∈ list.documents) ∧
      combine (rowsAt posting.document lists) ≠ [] ∧
        posting = .ofPositions posting.document (combine (rowsAt posting.document lists))

theorem Combines.mem_documents_iff {combine : List (List Nat) → List Nat} {lists : List InvertedList}
    (combines : list.Combines combine lists) : document ∈ list.documents ↔
      (∀ list ∈ lists, document ∈ list.documents) ∧ combine (rowsAt document lists) ≠ [] := by
  rw [mem_documents]
  constructor
  · rintro ⟨posting, member, rfl⟩
    obtain ⟨shared, nonempty, -⟩ := (combines posting).mp member
    exact ⟨shared, nonempty⟩
  · rintro ⟨shared, nonempty⟩
    let posting : Posting := .ofPositions document (combine (rowsAt document lists))
    exact ⟨posting, (combines posting).mpr ⟨shared, nonempty, rfl⟩, rfl⟩

theorem Combines.positions_eq {combine : List (List Nat) → List Nat} {lists : List InvertedList}
    (combines : list.Combines combine lists) (member : posting ∈ list.postings) :
    posting.positions = combine (rowsAt posting.document lists) :=
  congrArg Posting.positions ((combines posting).mp member).2.2

theorem Combines.frequency_eq {combine : List (List Nat) → List Nat} {lists : List InvertedList}
    (combines : list.Combines combine lists) (member : posting ∈ list.postings) :
    posting.frequency = posting.positions.length := by
  rw [((combines posting).mp member).2.2]
  rfl

end InvertedList

namespace Cursor

variable {ω : Type} {first second : InvertedList} {others : List InvertedList}
  {cursors : List (Cursor ω)}

theorem combines_proximity (field : Field) (combine : List (List Nat) → List Nat)
    (ascending : ∀ list ∈ first :: others, list.Ascending)
    (read : List.Forall₂ (fun list cursor => cursor.reader? = some (.ofList list)) (first :: others)
      cursors) :
    (InvertedList.ofPostings field (proximity combine cursors).1).Combines combine
      (first :: others) := by
  intro posting
  rw [InvertedList.ofPostings_postings, mem_proximity_iff combine ascending read]
  constructor
  · rintro ⟨document, shared, nonempty, rfl⟩
    exact ⟨shared, nonempty, rfl⟩
  · rintro ⟨shared, nonempty, written⟩
    exact ⟨posting.document, shared, nonempty, written⟩

/-- An ordered match of two or more operands combines their lists. -/
theorem combines_materialize_near (field : Field) (distance : Nat)
    (ascending : ∀ list ∈ first :: second :: others, list.Ascending)
    (read : List.Forall₂ (fun list cursor => cursor.reader? = some (.ofList list))
      (first :: second :: others) cursors) :
    (materialize field (.near distance) cursors).1.Combines (nearPositions distance)
      (first :: second :: others) := by
  have combines := combines_proximity field (nearPositions distance) ascending read
  obtain ⟨_, _, -, later, rfl⟩ := List.forall₂_cons_left_iff.mp read
  obtain ⟨_, _, -, -, rfl⟩ := List.forall₂_cons_left_iff.mp later
  rw [materialize]
  · exact combines
  all_goals simp

/-- An unordered match of two or more operands combines their lists. -/
theorem combines_materialize_window (field : Field) (size : Nat)
    (ascending : ∀ list ∈ first :: second :: others, list.Ascending)
    (read : List.Forall₂ (fun list cursor => cursor.reader? = some (.ofList list))
      (first :: second :: others) cursors) :
    (materialize field (.window size) cursors).1.Combines (windowPositions size)
      (first :: second :: others) := by
  have combines := combines_proximity field (windowPositions size) ascending read
  obtain ⟨_, _, -, later, rfl⟩ := List.forall₂_cons_left_iff.mp read
  obtain ⟨_, _, -, -, rfl⟩ := List.forall₂_cons_left_iff.mp later
  rw [materialize]
  · exact combines
  all_goals simp

end Cursor

end Retrieval
