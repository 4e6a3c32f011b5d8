import Retrieval.Evaluation
import Retrieval.Proofs.Cursor.Protocol

/-!
# Opening a cursor again

A cursor that has been opened is asked and moved, as a whole or at any place of its tree. All this
leaves its query as it is, down to the last operand, and opening depends on the query alone. So a
cursor that is opened again is in the state in which it was opened first, whatever has happened to it
in between.
-/

namespace Retrieval

namespace Cursor

variable {ω : Type}

/-! ## Changes in a tree -/

/-- The cursor with a change of what stands at a path, which leads from operand to operand. A path out
of the tree changes nothing. -/
def changeAt (change : Cursor ω → Cursor ω) : List Nat → Cursor ω → Cursor ω
  | [], cursor => change cursor
  | place :: path, cursor =>
      cursor.withOperands (cursor.operands.modify place (changeAt change path))

theorem keepsQuery_mapReader (change : Reader → Reader) :
    KeepsQuery (mapReader change : Cursor ω → Cursor ω) := by
  intro cursor
  cases cursor with
  | term => rfl
  | list => simp only [mapReader, query]
  | scoring => rfl

theorem query_withOperands {cursor : Cursor ω} {operands : List (Cursor ω)}
    (same : queries operands = queries cursor.operands) :
    (cursor.withOperands operands).query = cursor.query := by
  cases cursor with
  | term => rfl
  | list => simpa [withOperands, query, Cursor.operands] using same
  | scoring => simpa [withOperands, query, Cursor.operands] using same

namespace KeepsQuery

variable {change : Cursor ω → Cursor ω} (kept : KeepsQuery change)

include kept

theorem queries_modify (place : Nat) (cursors : List (Cursor ω)) :
    queries (cursors.modify place change) = queries cursors := by
  induction cursors generalizing place with
  | nil => simp
  | cons cursor later induction =>
      cases place with
      | zero => simp [kept cursor]
      | succ place => simpa using induction place

theorem changeAt (path : List Nat) : KeepsQuery (changeAt change path) := by
  induction path with
  | nil => exact kept
  | cons place path induction =>
      exact fun cursor => query_withOperands (induction.queries_modify place cursor.operands)

end KeepsQuery

/-! ## Finding matches -/

theorem keepsQuery_settleWithin (soft : Bool) (levels : Nat) :
    KeepsQuery (settleWithin soft levels : Cursor ω → Cursor ω) := by
  induction levels with
  | zero => exact fun cursor => rfl
  | succ levels induction =>
      intro cursor
      cases cursor with
      | term => rfl
      | list => rfl
      | scoring operator operands weights matched statistics =>
          cases matched with
          | some document => rfl
          | none =>
              have any := induction.queries_matchAny operands
              have all := induction.queries_matchAll operands
              cases operator with
              | and | wand =>
                  cases soft with
                  | true => simpa [settleWithin, query] using any
                  | false => simpa [settleWithin, query] using all
              | or | sum | wsum => simpa [settleWithin, query] using any
              | not => simpa [settleWithin, query] using induction.queries_map operands
              | score =>
                  cases operands with
                  | nil => rfl
                  | cons first others => simp [settleWithin, query, induction first]

theorem keepsQuery_settle (soft : Bool) : KeepsQuery (settle soft : Cursor ω → Cursor ω) :=
  fun cursor => keepsQuery_settleWithin soft cursor.height cursor

/-! ## Scoring -/

/-- What is asked of a cursor leaves its query as it is. -/
def AskKeepsQuery {α : Type} (ask : Cursor ω → Except Error α × Cursor ω) : Prop :=
  KeepsQuery fun cursor => (ask cursor).2

theorem AskKeepsQuery.query_eq {α : Type} {ask : Cursor ω → Except Error α × Cursor ω}
    (kept : AskKeepsQuery ask) {cursor moved : Cursor ω} {answer : Except Error α}
    (asked : ask cursor = (answer, moved)) : moved.query = cursor.query := by
  have same : (ask cursor).2.query = cursor.query := kept cursor
  rwa [asked] at same

theorem AskKeepsQuery.queries_askEach {α : Type} {ask : Cursor ω → Except Error α × Cursor ω}
    (kept : AskKeepsQuery ask) (cursors : List (Cursor ω)) :
    queries (askEach ask cursors).2 = queries cursors := by
  induction cursors with
  | nil => rfl
  | cons cursor later induction =>
      rw [askEach]
      split
      · next asked => rw [queries, queries, kept.query_eq asked]
      · next asked => rw [queries, queries, kept.query_eq asked, induction]

theorem queries_askEachWith {α β : Type} {ask : β → Cursor ω → Except Error α × Cursor ω}
    (kept : ∀ known, AskKeepsQuery (ask known)) (known : List β) (cursors : List (Cursor ω)) :
    queries (askEachWith ask known cursors).2 = queries cursors := by
  induction known generalizing cursors with
  | nil => rfl
  | cons first others induction =>
      cases cursors with
      | nil => rfl
      | cons cursor later =>
          rw [askEachWith]
          split
          · next asked => rw [queries, queries, (kept first).query_eq asked]
          · next asked => rw [queries, queries, (kept first).query_eq asked, induction]

variable [Arithmetic ω]

section Operands

variable {score : Cursor ω → Except Error ω × Cursor ω} (kept : AskKeepsQuery score)
  (index : Index) (model : Model ω) (document : DocumentId)

include kept

omit [Arithmetic ω] in
theorem askKeepsQuery_scoreIfPresent : AskKeepsQuery (scoreIfPresent score model document) := by
  intro operand
  have settled := keepsQuery_settle model.isSoft operand
  simp only [scoreIfPresent, settleOn]
  split
  · next present =>
      obtain ⟨-, rfl⟩ := Prod.mk.inj present
      exact (kept _).trans settled
  · next absent =>
      obtain ⟨-, rfl⟩ := Prod.mk.inj absent
      exact settled

theorem askKeepsQuery_scoreOrDefault :
    AskKeepsQuery (scoreOrDefault score index model document) := by
  intro operand
  have settled := keepsQuery_settle model.isSoft operand
  simp only [scoreOrDefault, settleOn]
  split
  · next present =>
      obtain ⟨-, rfl⟩ := Prod.mk.inj present
      exact (kept _).trans settled
  · next absent =>
      obtain ⟨-, rfl⟩ := Prod.mk.inj absent
      exact settled

theorem askKeepsQuery_scoreInSum (parameters : Bm25 ω) (documents : ω)
    (known : OperandStatistics ω) :
    AskKeepsQuery (scoreInSum score index model parameters documents document known) := by
  intro operand
  have settled := keepsQuery_settle model.isSoft operand
  simp only [scoreInSum, settleOn]
  split
  · next absent =>
      obtain ⟨-, rfl⟩ := Prod.mk.inj absent
      exact settled
  · next present =>
      obtain ⟨-, rfl⟩ := Prod.mk.inj present
      split
      · exact (kept _).trans settled
      · split
        · exact settled
        · exact settled

theorem queries_scoreOperands (statistics : Option (SumStatistics ω)) (operator : ScoringOperator)
    (weights : List ω) (operands : List (Cursor ω)) :
    queries (scoreOperands score index model document statistics operator weights operands).2 =
      queries operands := by
  unfold scoreOperands
  split
  · rfl
  · split
    · rfl
    · rfl
  · rfl
  · rfl
  · exact kept.queries_askEach operands
  · exact (askKeepsQuery_scoreIfPresent kept _ document).queries_askEach operands
  · exact (askKeepsQuery_scoreIfPresent kept _ document).queries_askEach operands
  · split
    · rfl
    · exact queries_askEachWith (askKeepsQuery_scoreInSum kept index _ document _ _) _ operands
  · rfl
  · exact (askKeepsQuery_scoreOrDefault kept index _ document).queries_askEach operands
  · rfl

end Operands

theorem askKeepsQuery_scoreWithin (index : Index) (model : Model ω) (levels : Nat) :
    AskKeepsQuery (scoreWithin index model levels) := by
  induction levels with
  | zero => exact fun cursor => rfl
  | succ levels induction =>
      intro cursor
      simp only [scoreWithin]
      split
      · rfl
      · next document _ =>
          split
          · next operator operands weights matched statistics =>
              rw [query, query, queries_scoreOperands induction]
          · rfl

/-! ## Histories -/

/-- What can be done to a cursor: it is called, or moved among the positions of its present
document. -/
inductive Operation where
  /-- A call. -/
  | call (call : Call)
  /-- A movement to the next position. -/
  | nextPosition
  /-- A movement past the positions up to a given one. -/
  | skipPositions (position : Nat)
  /-- The return to the first position. -/
  | resetPositions

/-- The cursor after an operation. -/
def operate (index : Index) (model : Model ω) : Operation → Cursor ω → Cursor ω
  | .call call, cursor => cursor.perform index model call
  | .nextPosition, cursor => cursor.mapReader Reader.nextPosition
  | .skipPositions position, cursor => cursor.mapReader (Reader.skipPositions position)
  | .resetPositions, cursor => cursor.mapReader Reader.resetPositions

theorem keepsQuery_operate (index : Index) (model : Model ω) (operation : Operation) :
    KeepsQuery (operate index model operation) := by
  cases operation with
  | call call =>
      cases call with
      | hasMatch => exact keepsQuery_settle model.isSoft
      | isOn => exact keepsQuery_settle model.isSoft
      | score => exact fun cursor => askKeepsQuery_scoreWithin index model cursor.height cursor
      | advancePast document => exact query_advancePast document
      | advanceTo document => exact query_advanceTo document
  | nextPosition => exact keepsQuery_mapReader _
  | skipPositions => exact keepsQuery_mapReader _
  | resetPositions => exact keepsQuery_mapReader _

/-- The cursor after a history: operations at places of its tree, one after the other. -/
def after (index : Index) (model : Model ω) (history : List (List Nat × Operation))
    (cursor : Cursor ω) : Cursor ω :=
  history.foldl (fun cursor (path, operation) =>
    cursor.changeAt (operate index model operation) path) cursor

theorem keepsQuery_after (index : Index) (model : Model ω)
    (history : List (List Nat × Operation)) : KeepsQuery (after index model history) := by
  induction history with
  | nil => exact fun cursor => rfl
  | cons first later induction =>
      obtain ⟨path, operation⟩ := first
      intro cursor
      exact (induction _).trans ((keepsQuery_operate index model operation).changeAt path cursor)

/-- Whatever has been done to a cursor and to its operands since it was opened, opening it again brings
the whole tree to the state in which it was opened first. That is the state of a cursor which is made of
the query anew, so a run gives the same documents and scores. -/
theorem openOn_after (index : Index) (model : Model ω) (cursor : Cursor ω)
    (history : List (List Nat × Operation)) :
    let reopened := ((cursor.openOn index).after index model history).openOn index
    let fresh := (ofQuery cursor.query).openOn index
    reopened = cursor.openOn index ∧ reopened = fresh ∧
      reopened.drain index model = fresh.drain index model := by
  intro reopened fresh
  have same : ((cursor.openOn index).after index model history).query = cursor.query :=
    (keepsQuery_after index model history _).trans (query_openOn index cursor)
  have first : cursor.openOn index = fresh := openOn_eq_ofQuery index cursor
  have again : reopened = fresh := (openOn_eq_ofQuery index _).trans (by rw [same])
  exact ⟨again.trans first.symm, again, by rw [again]⟩

end Cursor

end Retrieval
