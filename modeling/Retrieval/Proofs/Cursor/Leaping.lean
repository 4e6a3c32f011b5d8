import Retrieval.Proofs.Cursor.Movement
import Retrieval.Proofs.Posting.Intersection

/-!
# Searches of cursors with lists

Cursors with lists leap over each other in search of a common document until they agree or one of them is
at its end, and they always come to that. A conjunction lets its operands find their matches besides, but a
cursor with a list is its own match, so the search of the conjunction is the same.
-/

namespace Retrieval.Cursor

variable {ω : Type} {cursor : Cursor ω} {cursors others : List (Cursor ω)} {document : DocumentId}

/-! ## Searches without a bound -/

/-- The search of cursors for a common document ends with what it has found. As long as one of the others
is ahead of the first cursor, the first one moves to its document and the search begins again. -/
inductive Leaps : List (Cursor ω) → Option DocumentId → List (Cursor ω) → Prop
  | nil : Leaps [] none []
  /-- The first cursor is at its end. -/
  | ended {first : Cursor ω} {others : List (Cursor ω)} (ended : first.current? = none) :
      Leaps (first :: others) none (first :: others)
  /-- All cursors stand on the document of the first one. -/
  | agreed {first : Cursor ω} {others later : List (Cursor ω)} {document : DocumentId}
      (stands : first.current? = some document)
      (met : meet id document others = (.agreed, later)) :
      Leaps (first :: others) (some document) (first :: later)
  /-- One of the others has come to its end. -/
  | exhausted {first : Cursor ω} {others later : List (Cursor ω)} {document : DocumentId}
      (stands : first.current? = some document)
      (met : meet id document others = (.exhausted, later)) :
      Leaps (first :: others) none (first :: later)
  /-- Another round, from the document that one of the others has reached. -/
  | leap {first : Cursor ω} {others later final : List (Cursor ω)} {document other : DocumentId}
      {found : Option DocumentId} (stands : first.current? = some document)
      (met : meet id document others = (.ahead other, later))
      (next : Leaps (first.advanceTo other :: later) found final) :
      Leaps (first :: others) found final

/-- Where the first cursor stands, and what the others find out about its document, decide how the search
goes on. -/
theorem leaps_cons_iff {first : Cursor ω} {found : Option DocumentId} {after : List (Cursor ω)} :
    Leaps (first :: others) found after ↔
      match first.current? with
      | none => found = none ∧ after = first :: others
      | some document =>
          match meet id document others with
          | (.agreed, later) => found = some document ∧ after = first :: later
          | (.exhausted, later) => found = none ∧ after = first :: later
          | (.ahead other, later) => Leaps (first.advanceTo other :: later) found after := by
  constructor
  · intro leaps
    cases leaps with
    | ended ended => simp [ended]
    | agreed stands met => simp [stands, met]
    | exhausted stands met => simp [stands, met]
    | leap stands met next => simpa [stands, met] using next
  · intro step
    split at step
    · next ended =>
        obtain ⟨rfl, rfl⟩ := step
        exact .ended ended
    · next document stands =>
        split at step
        · next later met =>
            obtain ⟨rfl, rfl⟩ := step
            exact .agreed stands met
        · next later met =>
            obtain ⟨rfl, rfl⟩ := step
            exact .exhausted stands met
        · next other later met => exact .leap stands met step

/-- The search ends if the first cursor has a list, because it loses a posting in every round. -/
theorem leaps_leapfrog (rounds : Nat) {leading : Cursor ω} {reader : Reader}
    (known : leading.reader? = some reader) (enough : leading.remaining ≤ rounds) :
    Leaps (leading :: others) (leapfrog id rounds leading others).1
      (leapfrog id rounds leading others).2 := by
  induction rounds generalizing leading others reader with
  | zero =>
      rw [remaining_of_reader? known] at enough
      exact absurd enough (Nat.not_succ_le_zero _)
  | succ rounds induction =>
      rw [leaps_cons_iff, leapfrog]
      simp only [id_eq]
      cases current : leading.current? with
      | none => exact ⟨rfl, rfl⟩
      | some document =>
          dsimp only
          cases met : meet id document others with
          | mk agreement later =>
              cases agreement with
              | agreed => exact ⟨rfl, rfl⟩
              | exhausted => exact ⟨rfl, rfl⟩
              | ahead other =>
                  have fewer := remaining_advanceTo_lt known current (meet_id_ahead met)
                  exact induction (reader?_advanceTo known other)
                    (Nat.le_of_lt_succ (Nat.lt_of_lt_of_le fewer enough))

theorem leaps_matchAll (known : ∀ cursor ∈ cursors, ∃ reader, cursor.reader? = some reader) :
    Leaps cursors (matchAll id cursors).1 (matchAll id cursors).2 := by
  cases cursors with
  | nil => exact .nil
  | cons leading others =>
      obtain ⟨reader, opened⟩ := known leading List.mem_cons_self
      exact leaps_leapfrog _ opened (Nat.le_succ _)

/-- The search comes to one end only. -/
theorem Leaps.unique {found other : Option DocumentId} {after final : List (Cursor ω)}
    (leaps : Leaps cursors found after) (another : Leaps cursors other final) :
    other = found ∧ final = after := by
  induction leaps with
  | nil =>
      cases another
      exact ⟨rfl, rfl⟩
  | ended ended => simpa only [leaps_cons_iff, ended] using another
  | agreed stands met => simpa only [leaps_cons_iff, stands, met] using another
  | exhausted stands met => simpa only [leaps_cons_iff, stands, met] using another
  | leap stands met next induction =>
      rw [leaps_cons_iff, stands] at another
      simp only [met] at another
      exact induction another

/-! ## Searches for a match -/

theorem isKept_isList : IsKept fun cursor : Cursor ω => cursor.isList = true where
  advancePast document cursor isList := by
    cases cursor with
    | scoring => simp [Cursor.isList] at isList
    | term | list => rfl
  advanceTo document cursor isList := by
    cases cursor with
    | scoring => simp [Cursor.isList] at isList
    | term | list => rfl

/-- A cursor with a list is its own match. -/
theorem settle_of_isList (soft : Bool) (isList : cursor.isList = true) :
    cursor.settle soft = cursor := by
  cases cursor with
  | scoring => simp [Cursor.isList] at isList
  | term | list => rfl

theorem meet_settle (soft : Bool) (document : DocumentId)
    (areLists : ∀ cursor ∈ cursors, cursor.isList = true) :
    meet (settle soft) document cursors = meet id document cursors := by
  induction cursors with
  | nil => rfl
  | cons cursor later induction =>
      obtain ⟨isList, laterLists⟩ := List.forall_mem_cons.mp areLists
      have moved := isKept_isList.advanceTo document cursor isList
      rw [meet, meet, settle_of_isList soft moved, induction laterLists]
      rfl

/-- Where all cursors have lists, the search for a match is the search for a common document. -/
theorem leapfrog_settle (soft : Bool) (rounds : Nat)
    (areLists : ∀ other ∈ cursor :: others, other.isList = true) :
    leapfrog (settle soft) rounds cursor others = leapfrog id rounds cursor others := by
  induction rounds generalizing cursor others with
  | zero => rfl
  | succ rounds induction =>
      obtain ⟨isList, otherLists⟩ := List.forall_mem_cons.mp areLists
      rw [leapfrog, leapfrog, settle_of_isList soft isList]
      simp only [id_eq]
      cases cursor.current? with
      | none => rfl
      | some document =>
          have metLists := isKept_isList.meet_id document otherLists
          dsimp only
          rw [meet_settle soft document otherLists]
          generalize meet id document others = outcome at metLists ⊢
          obtain ⟨agreement, met⟩ := outcome
          cases agreement with
          | agreed => rfl
          | exhausted => rfl
          | ahead other =>
              exact induction (List.forall_mem_cons.mpr
                ⟨isKept_isList.advanceTo other cursor isList, metLists⟩)

theorem matchAll_settle (soft : Bool) (areLists : ∀ cursor ∈ cursors, cursor.isList = true) :
    matchAll (settle soft) cursors = matchAll id cursors := by
  cases cursors with
  | nil => rfl
  | cons cursor others => exact leapfrog_settle soft _ areLists

theorem meets_of_meet_id (soft : Bool) (areLists : ∀ cursor ∈ cursors, cursor.isList = true)
    {agreement : Agreement} {met : List (Cursor ω)}
    (meets : meet id document cursors = (agreement, met)) :
    Meets soft document cursors agreement met := by
  induction cursors generalizing agreement met with
  | nil =>
      obtain ⟨rfl, rfl⟩ := Prod.mk.inj meets
      exact .nil
  | cons cursor later induction =>
      obtain ⟨isList, laterLists⟩ := List.forall_mem_cons.mp areLists
      have settles : Settles soft (cursor.advanceTo document) (cursor.advanceTo document) :=
        .list (isKept_isList.advanceTo document cursor isList)
      rw [meet] at meets
      simp only [id_eq] at meets
      split at meets
      · next ended =>
          obtain ⟨rfl, rfl⟩ := Prod.mk.inj meets
          exact .exhausted settles ended
      · next other stands =>
          split at meets
          · next same =>
              subst same
              obtain ⟨rfl, rfl⟩ := Prod.mk.inj meets
              exact .same settles stands (induction laterLists rfl)
          · next differs =>
              obtain ⟨rfl, rfl⟩ := Prod.mk.inj meets
              exact .ahead settles stands differs

/-- The search for a match ends too, where the search for a common document does. -/
theorem Leaps.agrees (soft : Bool) (areLists : ∀ cursor ∈ cursors, cursor.isList = true)
    {found : Option DocumentId} {after : List (Cursor ω)} (leaps : Leaps cursors found after) :
    Agrees soft cursors found after := by
  induction leaps with
  | nil => exact .nil
  | ended ended =>
      exact .ended (.list (areLists _ List.mem_cons_self)) ended
  | agreed stands met =>
      obtain ⟨isList, otherLists⟩ := List.forall_mem_cons.mp areLists
      exact .agreed (.list isList) stands (meets_of_meet_id soft otherLists met)
  | exhausted stands met =>
      obtain ⟨isList, otherLists⟩ := List.forall_mem_cons.mp areLists
      exact .exhausted (.list isList) stands (meets_of_meet_id soft otherLists met)
  | @leap first others later _ document other _ stands met _ induction =>
      obtain ⟨isList, otherLists⟩ := List.forall_mem_cons.mp areLists
      have metLists := isKept_isList.meet_id document otherLists
      rw [met] at metLists
      exact .leap (.list isList) stands (meets_of_meet_id soft otherLists met)
        (induction (List.forall_mem_cons.mpr
          ⟨isKept_isList.advanceTo other first isList, metLists⟩))

end Retrieval.Cursor
