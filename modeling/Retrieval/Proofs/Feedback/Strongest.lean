import Mathlib.Data.List.Induction
import Mathlib.Data.List.Sort
import Retrieval.Proofs.Feedback.Heap

/-!
# The strongest documents

A shortlist keeps the strongest of the documents that have passed by: whatever is dropped is not stronger
than anything that is kept, since only the first document of the heap, which is the weakest, goes for a
stronger one. Brought into their order, the documents kept are therefore the first ones of the whole
ranking in that order.
-/

namespace Retrieval

variable {ω κ : Type} [LinearOrder κ] {key : Scored ω → κ}

namespace Shortlist

variable {list : Shortlist ω} {capacity : Nat} {passed dropped : Ranking ω} {scored weakest : Scored ω}

/-- The list keeps documents of those that have passed by, and the others have been dropped. -/
structure Keeps (key : Scored ω → κ) (capacity : Nat) (passed : Ranking ω) (list : Shortlist ω)
    (dropped : Ranking ω) : Prop where
  /-- The list is a heap. -/
  heap : IsHeap (keyAt key list) list.size
  /-- Each document is kept or dropped. -/
  all : (list.toList ++ dropped).Perm passed
  /-- The list does not outgrow its capacity. -/
  room : list.size ≤ capacity
  /-- Nothing is dropped while there is room. -/
  full : dropped ≠ [] → list.size = capacity
  /-- Nothing that is dropped is stronger than something that is kept. -/
  stronger : ∀ kept ∈ list.toList, ∀ other ∈ dropped, key kept ≤ key other

/-- The first document of a heap is the weakest. -/
theorem IsHeap.le_weakest (heap : IsHeap (keyAt key list) list.size)
    (first : list[0]? = some weakest) : ∀ kept ∈ list.toList, key kept ≤ key weakest := by
  intro kept member
  obtain ⟨place, inside, rfl⟩ := Array.mem_iff_getElem.mp (Array.mem_toList_iff.mp member)
  have below := heap.le_first inside
  rwa [keyAt_eq key inside, keyAt, first, Option.elim_some, WithBot.coe_le_coe] at below

variable [Arithmetic ω]

namespace Keeps

omit [Arithmetic ω] in
theorem subset (keeps : Keeps key capacity passed list dropped) : list.toList ⊆ passed :=
  fun _ member => keeps.all.subset (List.mem_append_left dropped member)

omit [Arithmetic ω] in
theorem append_cons_perm (keeps : Keeps key capacity passed list dropped) (scored : Scored ω) :
    (list.toList ++ scored :: dropped).Perm (passed ++ [scored]) :=
  List.perm_middle.trans ((keeps.all.cons scored).trans (List.perm_append_singleton scored passed).symm)

/-- What is made of documents kept and the next one is compared like all that have passed by. -/
theorem comparesBy_push (keeps : Keeps key capacity passed list dropped) {part : Shortlist ω}
    (compares : Ranking.ComparesBy key (passed ++ [scored])) (kept : part.toList ⊆ list.toList) :
    Ranking.ComparesBy key (part.push scored).toList := by
  rw [Array.toList_push]
  refine compares.of_subset (List.append_subset.mpr ⟨?_, List.subset_append_right _ _⟩)
  exact fun other member => List.mem_append_left _ (keeps.subset (kept member))

/-- A document for which there is room is kept. -/
theorem add (keeps : Keeps key capacity passed list dropped)
    (compares : Ranking.ComparesBy key (passed ++ [scored])) (room : list.size < capacity) :
    Keeps key capacity (passed ++ [scored]) (list.add scored) [] := by
  have none : dropped = [] := by
    by_contra some
    exact room.ne (keeps.full some)
  subst none
  refine ⟨isHeap_add (keeps.comparesBy_push compares (List.Subset.refl _)) keeps.heap, ?_, ?_,
    fun some => absurd rfl some, by simp⟩
  · rw [List.append_nil]
    exact (add_perm list scored).trans (keeps.append_cons_perm scored)
  · rw [size_add]
    exact room

omit [Arithmetic ω] in
/-- A document that is not stronger than anything kept is dropped. -/
theorem pass (keeps : Keeps key capacity passed list dropped) (full : list.size = capacity)
    (weaker : ∀ kept ∈ list.toList, key kept ≤ key scored) :
    Keeps key capacity (passed ++ [scored]) list (scored :: dropped) where
  heap := keeps.heap
  all := keeps.append_cons_perm scored
  room := keeps.room
  full _ := full
  stronger kept member := List.forall_mem_cons.mpr ⟨weaker kept member, keeps.stronger kept member⟩

/-- The weakest document gives way to a stronger one. -/
theorem replace (keeps : Keeps key capacity passed list dropped)
    (compares : Ranking.ComparesBy key (passed ++ [scored])) (full : list.size = capacity)
    (first : list[0]? = some weakest) (ahead : key scored < key weakest) :
    Keeps key capacity (passed ++ [scored]) (list.dropWeakest.add scored) (weakest :: dropped) := by
  have kept : list.dropWeakest.toList ⊆ list.toList := dropWeakest_subset first
  have size : (list.dropWeakest.add scored).size = list.size := by
    have some : 0 < list.size := (Array.getElem?_eq_some_iff.mp first).1
    rw [size_add, size_dropWeakest]
    omega
  have inside : list.toList ⊆ passed ++ [scored] := fun other member =>
    List.mem_append_left _ (keeps.subset member)
  have smaller : IsHeap (keyAt key list.dropWeakest) list.dropWeakest.size :=
    isHeap_dropWeakest (compares.of_subset inside) keeps.heap
  refine ⟨isHeap_add (keeps.comparesBy_push compares kept) smaller, ?_, size.trans_le keeps.room,
    fun _ => size.trans full, ?_⟩
  · refine ((add_perm _ scored).append_right _).trans (List.perm_middle.trans ?_)
    refine List.Perm.trans ?_ (keeps.append_cons_perm scored)
    simpa using (cons_dropWeakest_perm first).append_right (scored :: dropped)
  · have among : weakest ∈ list.toList := Array.mem_toList_iff.mpr (Array.mem_of_getElem? first)
    intro other member
    rcases List.mem_append.mp ((add_perm _ scored).subset member) with before | isScored
    · exact List.forall_mem_cons.mpr
        ⟨keeps.heap.le_weakest first other (kept before), keeps.stronger other (kept before)⟩
    · obtain rfl := List.mem_singleton.mp isScored
      exact List.forall_mem_cons.mpr ⟨ahead.le, fun late member =>
        ahead.le.trans (keeps.stronger weakest among late member)⟩

/-- The next document that passes by is kept, or it or the weakest is dropped. -/
theorem offer (keeps : Keeps key capacity passed list dropped)
    (compares : Ranking.ComparesBy key (passed ++ [scored])) :
    ∃ dropped, Keeps key capacity (passed ++ [scored]) (list.offer capacity scored) dropped := by
  rw [Shortlist.offer]
  split
  · next room => exact ⟨[], keeps.add compares room⟩
  · next fullUp =>
      have full : list.size = capacity := Nat.le_antisymm keeps.room (Nat.not_lt.mp fullUp)
      split
      · next none =>
          obtain rfl : list = #[] := by simpa using none
          exact ⟨_, keeps.pass full (by simp)⟩
      · next weakest first =>
          have among : weakest ∈ list.toList := Array.mem_toList_iff.mpr (Array.mem_of_getElem? first)
          have compared := compares scored (List.mem_append_right passed List.mem_cons_self) weakest
            (List.mem_append_left _ (keeps.subset among))
          split
          · next ahead => exact ⟨_, keeps.replace compares full first (compared.mp ahead)⟩
          · next behind =>
              have weaker : key weakest ≤ key scored := not_lt.mp fun ahead =>
                behind (compared.mpr ahead)
              exact ⟨_, keeps.pass full fun kept member =>
                (keeps.heap.le_weakest first kept member).trans weaker⟩

end Keeps

end Shortlist

variable [Arithmetic ω]

end Retrieval
