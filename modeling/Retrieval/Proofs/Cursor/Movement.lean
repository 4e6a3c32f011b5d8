import Retrieval.Proofs.Cursor.Shape

/-!
# What movement keeps

A merge of cursors only moves them, past a document or to one. So a property that these two movements
keep holds of the operands whenever a merge reads them: every posting that a list operator writes comes
from operands that have the property, standing on the document of the posting.
-/

namespace Retrieval

namespace Cursor

variable {ω : Type}

/-- Neither movement of a cursor ends the property. -/
structure IsKept (holds : Cursor ω → Prop) : Prop where
  /-- It is kept past a document. -/
  advancePast : ∀ document cursor, holds cursor → holds (cursor.advancePast document)
  /-- It is kept to a document. -/
  advanceTo : ∀ document cursor, holds cursor → holds (cursor.advanceTo document)

namespace IsKept

variable {holds : Cursor ω → Prop} (kept : IsKept holds)

include kept

/-! ## Searches for a common document -/

theorem meet_id (document : DocumentId) {cursors : List (Cursor ω)}
    (all : ∀ cursor ∈ cursors, holds cursor) :
    ∀ cursor ∈ (meet id document cursors).2, holds cursor := by
  induction cursors with
  | nil => simp [meet]
  | cons cursor later induction =>
      obtain ⟨first, others⟩ := List.forall_mem_cons.mp all
      have moved := kept.advanceTo document cursor first
      rw [meet]
      simp only [id_eq]
      split
      · exact List.forall_mem_cons.mpr ⟨moved, others⟩
      · split
        · exact List.forall_mem_cons.mpr ⟨moved, induction others⟩
        · exact List.forall_mem_cons.mpr ⟨moved, others⟩

theorem leapfrog_id (rounds : Nat) {first : Cursor ω} {others : List (Cursor ω)}
    (all : ∀ cursor ∈ first :: others, holds cursor) :
    ∀ cursor ∈ (leapfrog id rounds first others).2, holds cursor := by
  induction rounds generalizing first others with
  | zero => exact all
  | succ rounds induction =>
      obtain ⟨leads, follow⟩ := List.forall_mem_cons.mp all
      rw [leapfrog]
      simp only [id_eq]
      split
      · exact all
      · next document _ =>
          have met := kept.meet_id document follow
          split
          · next later same => exact List.forall_mem_cons.mpr ⟨leads, by simpa [same] using met⟩
          · next later same => exact List.forall_mem_cons.mpr ⟨leads, by simpa [same] using met⟩
          · next other later same =>
              exact induction (List.forall_mem_cons.mpr
                ⟨kept.advanceTo other first leads, by simpa [same] using met⟩)

theorem matchAll_id {cursors : List (Cursor ω)} (all : ∀ cursor ∈ cursors, holds cursor) :
    ∀ cursor ∈ (matchAll id cursors).2, holds cursor := by
  cases cursors with
  | nil => exact all
  | cons first others => exact kept.leapfrog_id _ all

omit kept in
/-- The first cursor stands on the document that the search has found. -/
theorem current?_of_leapfrog_id (rounds : Nat) {first : Cursor ω} {others moved : List (Cursor ω)}
    {found : DocumentId} (agree : leapfrog id rounds first others = (some found, moved)) :
    ∃ leading later, moved = leading :: later ∧ leading.current? = some found := by
  induction rounds generalizing first others with
  | zero => simp [leapfrog] at agree
  | succ rounds induction =>
      rw [leapfrog] at agree
      simp only [id_eq] at agree
      split at agree
      · simp at agree
      · next document standing =>
          split at agree
          · next later met =>
              obtain ⟨same, rfl⟩ := Prod.mk.inj agree
              exact ⟨first, later, rfl, standing.trans same⟩
          · simp at agree
          · exact induction agree

omit kept in
theorem current?_of_matchAll_id {cursors moved : List (Cursor ω)} {found : DocumentId}
    (agree : matchAll id cursors = (some found, moved)) :
    ∃ leading later, moved = leading :: later ∧ leading.current? = some found := by
  cases cursors with
  | nil => simp [matchAll] at agree
  | cons first others => exact current?_of_leapfrog_id _ agree

/-! ## Unions -/

theorem advancePast_present (document : DocumentId) {cursors : List (Cursor ω)}
    (all : ∀ cursor ∈ cursors, holds cursor) :
    ∀ cursor ∈ cursors.map fun cursor =>
      if cursor.current? == some document then cursor.advancePast document else cursor,
      holds cursor := by
  intro moved member
  obtain ⟨cursor, before, rfl⟩ := List.mem_map.mp member
  split
  · exact kept.advancePast document cursor (all cursor before)
  · exact all cursor before

theorem unite (rounds : Nat) {cursors : List (Cursor ω)} (all : ∀ cursor ∈ cursors, holds cursor) :
    ∀ cursor ∈ (Cursor.unite rounds cursors).2, holds cursor := by
  induction rounds generalizing cursors with
  | zero => exact all
  | succ rounds induction =>
      rw [Cursor.unite]
      split
      · exact all
      · next document _ => exact induction (kept.advancePast_present document all)

/-- A posting of a union has the positions of the cursors that stand on its document, the least of
all, at the moment when it is written. -/
theorem exists_of_mem_unite (rounds : Nat) {cursors : List (Cursor ω)}
    (all : ∀ cursor ∈ cursors, holds cursor) {posting : Posting}
    (member : posting ∈ (Cursor.unite rounds cursors).1) :
    ∃ standing : List (Cursor ω), (∀ cursor ∈ standing, holds cursor) ∧
      earliest standing = some posting.document ∧
      posting = .ofPositions posting.document
        (((standing.filter fun cursor => cursor.current? == some posting.document).flatMap
          positions).mergeSort (· ≤ ·)) := by
  induction rounds generalizing cursors with
  | zero => simp [Cursor.unite] at member
  | succ rounds induction =>
      rw [Cursor.unite] at member
      split at member
      · simp at member
      · next document found =>
          rcases List.mem_cons.mp member with rfl | later
          · exact ⟨cursors, all, found, rfl⟩
          · exact induction (kept.advancePast_present document all) later

/-! ## Intersections -/

theorem intersect (rounds : Nat) {cursors : List (Cursor ω)}
    (all : ∀ cursor ∈ cursors, holds cursor) :
    ∀ cursor ∈ (Cursor.intersect rounds cursors).2, holds cursor := by
  induction rounds generalizing cursors with
  | zero => exact all
  | succ rounds induction =>
      have matched := kept.matchAll_id all
      rw [Cursor.intersect]
      split
      · next moved agree => simpa [agree] using matched
      · next document moved agree =>
          rw [agree] at matched
          exact induction (List.forall_mem_map.mpr fun cursor member =>
            kept.advancePast document cursor (matched cursor member))

/-- A common document has the positions of all cursors at a moment when the first of them stands on
the document. -/
theorem exists_of_mem_intersect (rounds : Nat) {cursors : List (Cursor ω)}
    (all : ∀ cursor ∈ cursors, holds cursor) {common : DocumentId × List (List Nat)}
    (member : common ∈ (Cursor.intersect rounds cursors).1) :
    ∃ leading later, (∀ cursor ∈ leading :: later, holds cursor) ∧
      queries (leading :: later) = queries cursors ∧ leading.current? = some common.1 ∧
      common.2 = (leading :: later).map positions := by
  induction rounds generalizing cursors with
  | zero => simp [Cursor.intersect] at member
  | succ rounds induction =>
      have matched := kept.matchAll_id all
      have same := KeepsQuery.id.queries_matchAll cursors
      rw [Cursor.intersect] at member
      split at member
      · simp at member
      · next document moved agree =>
          rw [agree] at matched same
          rcases List.mem_cons.mp member with rfl | later
          · obtain ⟨leading, later, rfl, stands⟩ := current?_of_matchAll_id agree
            exact ⟨leading, later, matched, same, stands, rfl⟩
          · obtain ⟨leading, others, holdsEach, read, stands, positions⟩ :=
              induction (List.forall_mem_map.mpr fun cursor member =>
                kept.advancePast document cursor (matched cursor member)) later
            refine ⟨leading, others, holdsEach, ?_, stands, positions⟩
            rw [read, ← same]
            simp [Function.comp_def]

theorem proximity (combine : List (List Nat) → List Nat) {cursors : List (Cursor ω)}
    (all : ∀ cursor ∈ cursors, holds cursor) :
    ∀ cursor ∈ (Cursor.proximity combine cursors).2, holds cursor := by
  rw [Cursor.proximity]
  exact kept.intersect _ all

/-- A posting of a proximity operator has the positions that are found in those of all cursors at a
moment when the first of them stands on its document. -/
theorem exists_of_mem_proximity {combine : List (List Nat) → List Nat} {cursors : List (Cursor ω)}
    (all : ∀ cursor ∈ cursors, holds cursor) {posting : Posting}
    (member : posting ∈ (Cursor.proximity combine cursors).1) :
    ∃ leading later, (∀ cursor ∈ leading :: later, holds cursor) ∧
      queries (leading :: later) = queries cursors ∧ leading.current? = some posting.document ∧
      combine ((leading :: later).map positions) ≠ [] ∧
      posting = .ofPositions posting.document (combine ((leading :: later).map positions)) := by
  rw [Cursor.proximity] at member
  obtain ⟨⟨document, found⟩, common, written⟩ := List.mem_filterMap.mp member
  obtain ⟨leading, later, holdsEach, same, stands, rfl⟩ := kept.exists_of_mem_intersect _ all common
  dsimp only at written stands
  split at written
  · simp at written
  · next nonempty =>
      obtain rfl := Option.some.inj written
      exact ⟨leading, later, holdsEach, same, stands, nonempty, rfl⟩

/-! ## List operators -/

/-- A list operator leaves its operands with every property that movement keeps. -/
theorem materialize (field : Field) (operator : ListOperator) {operands : List (Cursor ω)}
    (all : ∀ operand ∈ operands, holds operand) :
    ∀ operand ∈ (Cursor.materialize field operator operands).2, holds operand := by
  unfold Cursor.materialize
  split
  · exact kept.unite _ all
  · simp
  · exact all
  · next distance _ _ => exact kept.proximity (nearPositions distance) all
  · next size _ _ => exact kept.proximity (windowPositions size) all

end IsKept

end Cursor

end Retrieval
