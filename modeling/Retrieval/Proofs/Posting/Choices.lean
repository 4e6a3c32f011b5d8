import Mathlib.Data.List.Forall2
import Mathlib.Data.List.Perm.Subperm
import Mathlib.Data.Nat.Basic
import Retrieval.Proofs.Posting.Positions

/-!
# Choices from rows of positions

A match of a proximity operator is a choice of one position from each row of positions. Choices of
which each lies behind the one before it in all rows use no position twice. So there are no more of
them than positions in any row, and their last or greatest positions ascend.
-/

namespace Retrieval

/-- The choice has one position of each row. -/
def IsChoice (rows : List (List Nat)) (choice : List Nat) : Prop :=
  List.Forall₂ (fun positions position => position ∈ positions) rows choice

/-- In each row the later choice lies behind the earlier one. -/
def LiesBefore (earlier later : List Nat) : Prop :=
  List.Forall₂ (· < ·) earlier later

variable {rows others : List (List Nat)} {choice heads earlier later : List Nat}
  {position next : Nat}

theorem IsChoice.mono (isChoice : IsChoice rows choice)
    (within : List.Forall₂ (· ⊆ ·) rows others) : IsChoice others choice :=
  forall₂_comp within.flip isChoice fun contained member => contained member

theorem within_refl (rows : List (List Nat)) : List.Forall₂ (· ⊆ ·) rows rows :=
  List.forall₂_same.mpr fun positions _ => List.Subset.refl positions

theorem LiesBefore.trans {middle : List Nat} (first : LiesBefore earlier middle)
    (second : LiesBefore middle later) : LiesBefore earlier later :=
  forall₂_comp first second Nat.lt_trans

instance : Trans LiesBefore LiesBefore LiesBefore := ⟨LiesBefore.trans⟩

/-- What is chosen behind the next positions lies behind them. -/
theorem liesBefore_of_tails (sorted : ∀ positions ∈ rows, positions.Pairwise (· < ·))
    (each : List.Forall₂ (fun positions head => positions.head? = some head) rows heads)
    (behind : IsChoice (rows.map List.tail) choice) : LiesBefore heads choice := by
  induction each generalizing choice with
  | nil => exact (List.forall₂_nil_left_iff.mp behind) ▸ .nil
  | cons here _ induction =>
      obtain ⟨rest, rfl⟩ := List.head?_eq_some_iff.mp here
      obtain ⟨sort, sortLater⟩ := List.forall_mem_cons.mp sorted
      obtain ⟨position, later, member, chosen, rfl⟩ := List.forall₂_cons_left_iff.mp behind
      exact .cons (List.rel_of_pairwise_cons sort member) (induction sortLater chosen)

theorem LiesBefore.max?_lt (before : LiesBefore earlier later) (greatest : earlier.max? = some position)
    (greatestLater : later.max? = some next) : position < next := by
  obtain ⟨other, among, less⟩ :=
    exists_of_mem_forall₂ before (List.max?_eq_some_iff.mp greatest).1
  exact Nat.lt_of_lt_of_le less ((List.max?_eq_some_iff.mp greatestLater).2 other among)

theorem LiesBefore.getLast?_lt (before : LiesBefore earlier later)
    (last : earlier.getLast? = some position) (lastLater : later.getLast? = some next) :
    position < next := by
  induction before with
  | nil => simp at last
  | cons less before induction =>
      cases before with
      | nil =>
          simp only [List.getLast?_singleton, Option.some.injEq] at last lastLater
          exact last ▸ lastLater ▸ less
      | cons lessNext behind => exact induction (by simpa using last) (by simpa using lastLater)

/-- If each choice lies behind the one before it, then so do the positions that the choices end on. -/
theorem pairwise_of_liesBefore {choices : List (List Nat)} {ends : List Nat}
    {ending : List Nat → Option Nat}
    (raises : ∀ {earlier later position next}, LiesBefore earlier later →
      ending earlier = some position → ending later = some next → position < next)
    (endOn : List.Forall₂ (fun choice position => ending choice = some position) choices ends)
    (ordered : choices.Pairwise LiesBefore) : ends.Pairwise (· < ·) := by
  induction endOn with
  | nil => exact .nil
  | cons here endLater induction =>
      obtain ⟨before, orderedLater⟩ := List.pairwise_cons.mp ordered
      refine List.pairwise_cons.mpr ⟨fun next member => ?_, induction orderedLater⟩
      obtain ⟨later, among, there⟩ := exists_of_mem_forall₂ endLater.flip member
      exact raises (before later among) here there

/-- There are no more choices that lie one behind the other than positions in any row. -/
theorem length_le_of_liesBefore {choices : List (List Nat)} {positions : List Nat}
    (isChoice : ∀ choice ∈ choices, IsChoice rows choice) (ordered : choices.Pairwise LiesBefore)
    (member : positions ∈ rows) : choices.length ≤ positions.length := by
  induction rows generalizing choices with
  | nil => simp at member
  | cons first rows induction =>
      have parts : ∀ choice ∈ choices, ∃ position rest, position ∈ first ∧ IsChoice rows rest ∧
          choice = position :: rest := fun choice among =>
        List.forall₂_cons_left_iff.mp (isChoice choice among)
      rcases List.mem_cons.mp member with rfl | member
      · have distinct : (choices.map List.head?).Nodup := by
          refine List.pairwise_map.mpr (ordered.imp_of_mem fun among amongLater before => ?_)
          obtain ⟨position, rest, -, -, rfl⟩ := parts _ among
          obtain ⟨next, restLater, -, -, rfl⟩ := parts _ amongLater
          simpa using Nat.ne_of_lt (List.forall₂_cons.mp before).1
        have inside : choices.map List.head? ⊆ positions.map some := by
          refine List.forall_mem_map.mpr fun choice among => ?_
          obtain ⟨position, rest, present, -, rfl⟩ := parts choice among
          exact List.mem_map_of_mem present
        simpa using (distinct.subperm inside).length_le
      · have chosen : ∀ choice ∈ choices.map List.tail, IsChoice rows choice := by
          refine List.forall_mem_map.mpr fun choice among => ?_
          obtain ⟨position, rest, -, isChoice, rfl⟩ := parts choice among
          exact isChoice
        have orderedRest : (choices.map List.tail).Pairwise LiesBefore := by
          refine List.pairwise_map.mpr (ordered.imp_of_mem fun among amongLater before => ?_)
          obtain ⟨position, rest, -, -, rfl⟩ := parts _ among
          obtain ⟨next, restLater, -, -, rfl⟩ := parts _ amongLater
          exact (List.forall₂_cons.mp before).2
        simpa using induction chosen orderedRest member

/-- There are no more choices that lie one behind the other than occurrences in any list. -/
theorem InvertedList.length_le_frequencyAt {lists : List InvertedList} {list : InvertedList}
    {document : DocumentId} {choices : List (List Nat)} (sorted : list.Sorted) (member : list ∈ lists)
    (isChoice : ∀ choice ∈ choices, IsChoice (rowsAt document lists) choice)
    (ordered : choices.Pairwise LiesBefore) : choices.length ≤ list.frequencyAt document := by
  rw [frequencyAt_eq sorted.counts]
  exact length_le_of_liesBefore isChoice ordered (List.mem_map_of_mem member)

end Retrieval
