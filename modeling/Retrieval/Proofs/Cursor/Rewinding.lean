import Retrieval.Proofs.Cursor.Standing

/-!
# Positions that have been passed

Cursors that look for documents pay no attention to positions: a search does the same wherever the cursors
stand among the positions of their documents. A cursor that moves to another document stands on the first
position there.
-/

namespace Retrieval

namespace Reader

variable {reader : Reader} {document : DocumentId}

theorem resetPositions_skip (passed : DocumentId → Bool) (reader : Reader) :
    (reader.skip passed).resetPositions = reader.resetPositions.skip passed := by
  rw [resetPositions, resetPositions, skip_enter, skip]
  split
  · next ended => simp [ended]
  · next posting later ahead =>
      split
      · next passes => simp [enter, ahead, passes]
      · next stays => simp [ahead, stays]

/-- Past the present document it does not matter which of its positions have been passed. -/
theorem skip_resetPositions (current : reader.current? = some document) :
    reader.resetPositions.skip (· ≤ document) = reader.skip (· ≤ document) := by
  obtain ⟨posting, head, rfl⟩ := Option.map_eq_some_iff.mp current
  obtain ⟨later, ahead⟩ := List.head?_eq_some_iff.mp head
  simp [resetPositions, enter, skip, ahead]

end Reader

namespace Cursor

variable {ω : Type} {cursor moved : Cursor ω} {cursors others : List (Cursor ω)}
  {document : DocumentId}

/-! ## Cursors on first positions -/

/-- The cursor on the first position of its document. -/
def rewind (cursor : Cursor ω) : Cursor ω :=
  cursor.mapReader Reader.resetPositions

/-- The positions of the present document that have not been passed. -/
def unread (cursor : Cursor ω) : List Nat :=
  cursor.reader?.elim [] (·.positions)

/-- The cursors differ at most in the positions that they have passed in their document. -/
def SamePosting (cursor other : Cursor ω) : Prop :=
  cursor.rewind = other.rewind

/-- Movements among the positions of a document leave a cursor on its posting. -/
theorem samePosting_mapReader {change : Reader → Reader}
    (kept : ∀ reader : Reader, (change reader).resetPositions = reader.resetPositions)
    (cursor : Cursor ω) : SamePosting cursor (cursor.mapReader change) := by
  cases cursor with
  | term _ _ reader | list _ _ _ reader =>
      cases reader <;> simp [SamePosting, rewind, mapReader, kept]
  | scoring => rfl

theorem reader?_rewind (cursor : Cursor ω) :
    cursor.rewind.reader? = cursor.reader?.map Reader.resetPositions := by
  cases cursor <;> rfl

theorem current?_rewind (cursor : Cursor ω) : cursor.rewind.current? = cursor.current? := by
  cases cursor with
  | term _ _ reader | list _ _ _ reader => cases reader <;> rfl
  | scoring => rfl

theorem remaining_rewind (cursor : Cursor ω) : cursor.rewind.remaining = cursor.remaining := by
  cases cursor with
  | term _ _ reader | list _ _ _ reader =>
      cases reader <;>
        simp [rewind, mapReader, remaining, Reader.resetPositions, Reader.enter]
  | scoring => rfl

theorem positions_rewind (cursor : Cursor ω) : cursor.rewind.positions = cursor.positions := by
  rw [positions, positions, posting?, posting?, reader?_rewind]
  cases cursor.reader? <;> rfl

/-- On the first position all positions of the document are unread. -/
theorem unread_rewind (cursor : Cursor ω) : cursor.rewind.unread = cursor.positions := by
  rw [unread, positions, posting?, reader?_rewind]
  cases cursor.reader? with
  | none => rfl
  | some reader =>
      rcases reader with ⟨list, _ | ⟨posting, later⟩, passed⟩ <;> rfl

theorem rewind_advanceTo (document : DocumentId) (cursor : Cursor ω) :
    (cursor.advanceTo document).rewind = cursor.rewind.advanceTo document := by
  cases cursor with
  | term _ _ reader | list _ _ _ reader =>
      cases reader <;> simp [advanceTo, rewind, mapReader, Reader.resetPositions_skip]
  | scoring operator operands weights matched statistics =>
      rw [advanceTo, apply_ite rewind]
      rfl

theorem rewind_advancePast (document : DocumentId) (cursor : Cursor ω) :
    (cursor.advancePast document).rewind = cursor.rewind.advancePast document := by
  cases cursor with
  | term _ _ reader | list _ _ _ reader =>
      cases reader <;> simp [advancePast, rewind, mapReader, Reader.resetPositions_skip]
  | scoring => rfl

/-- Past the document on which it stands a cursor is the same, whichever positions it has passed
before. -/
theorem advancePast_rewind (current : cursor.current? = some document) :
    cursor.rewind.advancePast document = cursor.advancePast document := by
  cases cursor with
  | term _ _ reader | list _ _ _ reader =>
      obtain ⟨reader, rfl, here⟩ := Option.bind_eq_some_iff.mp current
      simp [advancePast, rewind, mapReader, Reader.skip_resetPositions here]
  | scoring => rfl

theorem SamePosting.advancePast_eq (same : SamePosting cursor moved)
    (current : cursor.current? = some document) :
    moved.advancePast document = cursor.advancePast document := by
  have rewound : moved.rewind = cursor.rewind := same.symm
  have stands : moved.current? = some document := by
    rw [← current?_rewind, rewound, current?_rewind, current]
  rw [← advancePast_rewind stands, rewound, advancePast_rewind current]

theorem map_advancePast_eq (same : List.Forall₂ SamePosting cursors others)
    (standOn : ∀ cursor ∈ cursors, cursor.current? = some document) :
    others.map (advancePast document) = cursors.map (advancePast document) := by
  induction same with
  | nil => rfl
  | cons head _ induction =>
      obtain ⟨current, standLater⟩ := List.forall_mem_cons.mp standOn
      rw [List.map_cons, List.map_cons, head.advancePast_eq current, induction standLater]

/-- Cursors that move past the document on which they stand come to first positions. -/
theorem map_rewind_advancePast (standOn : ∀ cursor ∈ cursors, cursor.current? = some document) :
    (cursors.map (advancePast document)).map rewind = cursors.map (advancePast document) := by
  rw [List.map_map]
  refine List.map_congr_left fun cursor member => ?_
  exact (rewind_advancePast document cursor).trans (advancePast_rewind (standOn cursor member))

theorem map_unread_of_rewound (rewound : cursors.map rewind = cursors) :
    cursors.map unread = cursors.map positions := by
  rw [← rewound, List.map_map, List.map_map]
  simp only [Function.comp_def, unread_rewind, positions_rewind]

/-! ## Searches and positions -/

/-- A search does not look at positions. -/
theorem meet_id_map_rewind (document : DocumentId) (cursors : List (Cursor ω)) :
    meet id document (cursors.map rewind) =
      (meet id document cursors).map id (List.map rewind) := by
  induction cursors with
  | nil => rfl
  | cons cursor later induction =>
      rw [List.map_cons, meet, meet, induction]
      simp only [id_eq, ← rewind_advanceTo, current?_rewind]
      split
      · rfl
      · split <;> rfl

theorem leapfrog_id_map_rewind (rounds : Nat) (cursor : Cursor ω) (others : List (Cursor ω)) :
    leapfrog id rounds cursor.rewind (others.map rewind) =
      (leapfrog id rounds cursor others).map id (List.map rewind) := by
  induction rounds generalizing cursor others with
  | zero => rfl
  | succ rounds induction =>
      rw [leapfrog, leapfrog]
      simp only [id_eq, current?_rewind]
      cases cursor.current? with
      | none => rfl
      | some document =>
          dsimp only
          rw [meet_id_map_rewind]
          rcases meet id document others with ⟨_ | _ | other, met⟩
          · rfl
          · rfl
          · exact (congrArg (leapfrog id rounds · (met.map rewind))
              (rewind_advanceTo other cursor).symm).trans (induction _ met)

theorem matchAll_id_map_rewind (cursors : List (Cursor ω)) :
    matchAll id (cursors.map rewind) = (matchAll id cursors).map id (List.map rewind) := by
  cases cursors with
  | nil => rfl
  | cons cursor others =>
      rw [List.map_cons, matchAll, matchAll, remaining_rewind, leapfrog_id_map_rewind]

/-- A search from first positions ends on first positions. -/
theorem matchAll_id_rewound (rewound : cursors.map rewind = cursors) :
    (matchAll id cursors).2.map rewind = (matchAll id cursors).2 := by
  have same := congrArg Prod.snd (matchAll_id_map_rewind cursors)
  rw [rewound] at same
  exact same.symm

theorem map_advancePast_map_rewind (document : DocumentId) (cursors : List (Cursor ω)) :
    (cursors.map rewind).map (advancePast document) =
      (cursors.map (advancePast document)).map rewind := by
  simp [Function.comp_def, rewind_advancePast]

theorem intersect_map_rewind (rounds : Nat) (cursors : List (Cursor ω)) :
    intersect rounds (cursors.map rewind) =
      (intersect rounds cursors).map id (List.map rewind) := by
  induction rounds generalizing cursors with
  | zero => rfl
  | succ rounds induction =>
      rw [intersect, intersect, matchAll_id_map_rewind]
      rcases matchAll id cursors with ⟨_ | document, standing⟩
      · rfl
      · have shown : (standing.map rewind).map positions = standing.map positions := by
          simp [Function.comp_def, positions_rewind]
        simp only [Prod.map, id_eq, map_advancePast_map_rewind, induction, shown]

end Cursor

end Retrieval
