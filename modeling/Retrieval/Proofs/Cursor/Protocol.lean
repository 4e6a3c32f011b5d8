import Retrieval.Proofs.Scoring.Matches

/-!
# Calls of a cursor in any order

A cursor is asked for its match, for a document, for its score, or moved forward, in any order. Every
such call ends, and what the cursor finds next depends on the movements alone: it is the least document
of its query that none of them has passed.
-/

namespace Retrieval

/-- A call of a cursor. -/
inductive Call where
  /-- Whether the cursor has a match. -/
  | hasMatch
  /-- Whether the match is the document. -/
  | isOn (document : DocumentId)
  /-- The score of the match. -/
  | score
  /-- A movement past the document. -/
  | advancePast (document : DocumentId)
  /-- A movement to the document. -/
  | advanceTo (document : DocumentId)

namespace Call

/-- The call does not pass the document. -/
def Allows (document : DocumentId) : Call → Prop
  | .advancePast passed => passed < document
  | .advanceTo reached => reached ≤ document
  | _ => True

/-- The bound of a cursor after the call. -/
def raise (bound : DocumentId) : Call → DocumentId
  | .advancePast passed => max bound (passed + 1)
  | .advanceTo reached => max bound reached
  | _ => bound

theorem raise_le_iff (bound document : DocumentId) (call : Call) :
    call.raise bound ≤ document ↔ bound ≤ document ∧ call.Allows document := by
  cases call with
  | advancePast passed => exact Nat.max_le
  | advanceTo reached => exact Nat.max_le
  | hasMatch | isOn | score => simp [raise, Allows]

theorem foldl_raise_le_iff (calls : List Call) (bound document : DocumentId) :
    calls.foldl raise bound ≤ document ↔
      bound ≤ document ∧ ∀ call ∈ calls, call.Allows document := by
  induction calls generalizing bound with
  | nil => simp
  | cons call calls induction =>
      rw [List.foldl_cons, induction, raise_le_iff, List.forall_mem_cons, and_assoc]

end Call

namespace Cursor

variable {ω : Type} [Arithmetic ω] {index : Index} {model : Model ω}

/-- The cursor after a call. -/
def perform (index : Index) (model : Model ω) (cursor : Cursor ω) : Call → Cursor ω
  | .hasMatch => cursor.settle model.isSoft
  | .isOn document => (cursor.settleOn model document).2
  | .score => (cursor.score index model).2
  | .advancePast document => cursor.advancePast document
  | .advanceTo document => cursor.advanceTo document

/-- A call ends and leaves the second cursor. -/
inductive Performs (index : Index) (model : Model ω) : Call → Cursor ω → Cursor ω → Prop
  | hasMatch {before after : Cursor ω} (ends : Settles model.isSoft before after) :
      Performs index model .hasMatch before after
  | isOn {document : DocumentId} {before after : Cursor ω} (ends : Settles model.isSoft before after) :
      Performs index model (.isOn document) before after
  | score {before after : Cursor ω} {answer : Except Error ω}
      (ends : Scores index model before (answer, after)) : Performs index model .score before after
  | advancePast (document : DocumentId) (before : Cursor ω) :
      Performs index model (.advancePast document) before (before.advancePast document)
  | advanceTo (document : DocumentId) (before : Cursor ω) :
      Performs index model (.advanceTo document) before (before.advanceTo document)

/-- All calls end, one after the other. -/
inductive PerformsEach (index : Index) (model : Model ω) : List Call → Cursor ω → Cursor ω → Prop
  | nil (cursor : Cursor ω) : PerformsEach index model [] cursor cursor
  | cons {call : Call} {calls : List Call} {before between after : Cursor ω}
      (head : Performs index model call before between)
      (tail : PerformsEach index model calls between after) :
      PerformsEach index model (call :: calls) before after

theorem Stands.performed (ascending : index.Ascending) {bound : DocumentId} {query : Query ω}
    {cursor : Cursor ω} (stands : Stands index model.isSoft bound query cursor) (call : Call) :
    Performs index model call cursor (cursor.perform index model call) ∧
      Stands index model.isSoft (call.raise bound) query (cursor.perform index model call) := by
  cases call with
  | hasMatch =>
      obtain ⟨ends, standing, -⟩ := stands.settle ascending
      exact ⟨.hasMatch ends, standing⟩
  | isOn document =>
      obtain ⟨ends, standing, -⟩ := stands.settle ascending
      exact ⟨.isOn ends, standing⟩
  | score =>
      obtain ⟨ends, standing, -, -⟩ := stands.scoredRight ascending
      exact ⟨.score ends, standing⟩
  | advancePast document => exact ⟨.advancePast document cursor, stands.advancePast ascending document⟩
  | advanceTo document => exact ⟨.advanceTo document cursor, stands.advanceTo ascending document⟩

theorem Stands.performedEach (ascending : index.Ascending) {query : Query ω} (calls : List Call)
    {bound : DocumentId} {cursor : Cursor ω}
    (stands : Stands index model.isSoft bound query cursor) :
    PerformsEach index model calls cursor (calls.foldl (perform index model) cursor) ∧
      Stands index model.isSoft (calls.foldl Call.raise bound) query
        (calls.foldl (perform index model) cursor) := by
  induction calls generalizing bound cursor with
  | nil => exact ⟨.nil cursor, stands⟩
  | cons call calls induction =>
      obtain ⟨head, standing⟩ := stands.performed ascending call
      obtain ⟨tail, final⟩ := induction standing
      exact ⟨.cons head tail, final⟩

/-- After any calls a cursor that stands on a document scores it by its query. -/
theorem answers_after_calls (ascending : index.Ascending) {cursor : Cursor ω} (calls : List Call)
    {document : DocumentId}
    (current : (calls.foldl (perform index model) (cursor.openOn index)).current? = some document) :
    let final := calls.foldl (perform index model) (cursor.openOn index)
    document ∈ cursor.query.documentsOn index model.isSoft ∧
      (final.score index model).1 = cursor.query.scoreAt index model document ∧
      final.defaultScore index model document = cursor.query.defaultAt index model document := by
  obtain ⟨-, stands⟩ := (stands_openOn index model.isSoft cursor).performedEach ascending calls
  exact ⟨stands.mem_of_current? ascending current,
    (stands.scoredRight ascending).answer document current, stands.defaultScore_eq model document⟩

/-- A cursor that is moved to a document of its query and asked for its match stands on the document. -/
theorem current?_advanced (ascending : index.Ascending) (model : Model ω) {query : Query ω}
    {document : DocumentId} (present : document ∈ query.documentsOn index model.isSoft) :
    ([Call.advanceTo document, .hasMatch].foldl (perform index model)
      ((ofQuery query).openOn index)).current? = some document := by
  have stands := (stands_openOn index model.isSoft (ofQuery query)).advanceTo ascending document
  rw [query_ofQuery] at stands
  obtain ⟨-, -, next⟩ := stands.settle ascending
  obtain ⟨least, current, below⟩ := next.exists_of_mem ⟨present, (Nat.max_eq_right (Nat.zero_le _)).le⟩
  have reached := (next.mem current).2
  rw [Nat.max_eq_right (Nat.zero_le _)] at reached
  exact Nat.le_antisymm below reached ▸ current

/-- A cursor that is opened and asked for its match stands on the only document of its query. -/
theorem current?_settled {ω : Type} [Arithmetic ω] {index : Index} (ascending : index.Ascending)
    {model : Model ω} {query : Query ω} {document : DocumentId}
    (documents : query.documentsOn index model.isSoft = {document}) :
    ([Call.hasMatch].foldl (perform index model) ((ofQuery query).openOn index)).current? =
      some document := by
  have stands := stands_openOn index model.isSoft (ofQuery query)
  rw [query_ofQuery] at stands
  obtain ⟨-, -, next⟩ := stands.settle ascending
  obtain ⟨least, current, -⟩ := next.exists_of_mem ⟨documents ▸ Finset.mem_singleton_self document,
    Nat.zero_le _⟩
  have same : least = document := by
    have among := (next.mem current).1
    rwa [documents, Finset.mem_singleton] at among
  exact same ▸ current

/-- Whatever calls a cursor has had since it was opened, they have all ended, and so does the next
search for a match. It finds the least document of the query that no movement has passed. -/
theorem next_after_calls (documents : List Document) (stopwords : List String) (model : Model ω)
    (cursor : Cursor ω) (calls : List Call) :
    let index := Index.ofDocuments documents stopwords
    let final := calls.foldl (perform index model) (cursor.openOn index)
    PerformsEach index model calls (cursor.openOn index) final ∧
      Settles model.isSoft final (final.settle model.isSoft) ∧
      IsNext {document | document ∈ cursor.query.documentsOn index model.isSoft ∧
        ∀ call ∈ calls, call.Allows document} (final.settle model.isSoft).current? := by
  intro index final
  have ascending := Index.ofDocuments_ascending documents stopwords
  obtain ⟨performed, stands⟩ :=
    (stands_openOn index model.isSoft cursor).performedEach ascending calls
  obtain ⟨ends, -, next⟩ := stands.settle ascending
  refine ⟨performed, ends, ?_⟩
  have same : documentsFrom (cursor.query.documentsOn index model.isSoft) (calls.foldl Call.raise 0) =
      {document | document ∈ cursor.query.documentsOn index model.isSoft ∧
        ∀ call ∈ calls, call.Allows document} := by
    ext document
    simp [documentsFrom, Call.foldl_raise_le_iff]
  exact same ▸ next

end Cursor

end Retrieval
