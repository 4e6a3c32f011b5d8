import Mathlib.Data.List.Basic
import Mathlib.Logic.Equiv.Basic
import Mathlib.Order.WithBot
import Retrieval.Shortlist

/-!
# Shortlists as heaps

Raising and sinking move documents about until no document stands below a stronger one. On the way
there is a single place whose document may stand wrongly; the place moves along one path, up to where the
document fits or down to a leaf and up again. So a shortlist is a heap after whatever is done to it, and
taking the weakest off one after the other brings it into order.
-/

namespace Retrieval

/-- Of two documents of the ranking, that with the smaller key is ranked first. -/
def Ranking.ComparesBy {ω κ : Type} [Arithmetic ω] [LinearOrder κ] (key : Scored ω → κ)
    (ranking : Ranking ω) : Prop :=
  ∀ left ∈ ranking, ∀ right ∈ ranking, left.precedes right = true ↔ key left < key right

theorem Ranking.ComparesBy.of_subset {ω κ : Type} [Arithmetic ω] [LinearOrder κ] {key : Scored ω → κ}
    {ranking part : Ranking ω} (compares : ranking.ComparesBy key) (subset : part ⊆ ranking) :
    Ranking.ComparesBy key part :=
  fun left leftMember right rightMember =>
    compares left (subset leftMember) right (subset rightMember)

namespace Shortlist

/-! ## What is kept -/

section Kept

variable {ω : Type} [Arithmetic ω] {list : Shortlist ω} {weakest : Scored ω}

omit [Arithmetic ω] in
theorem swapIfInBounds_perm (list : Shortlist ω) (left right : Nat) :
    (list.swapIfInBounds left right).Perm list := by
  rw [Array.swapIfInBounds_def]
  split
  · split
    · exact Array.swap_perm _ _
    · exact .refl _
  · exact .refl _

omit [Arithmetic ω] in
theorem swap_subset (list : Shortlist ω) (left right : Nat) :
    (list.swapIfInBounds left right).toList ⊆ list.toList :=
  (Array.perm_iff_toList_perm.mp (list.swapIfInBounds_perm left right)).subset

theorem raise_perm (list : Shortlist ω) (place : Nat) : (list.raise place).Perm list := by
  fun_induction raise list place with
  | case1 list place above ahead induction => exact induction.trans (list.swapIfInBounds_perm _ _)
  | case2 => exact .refl _

theorem sink_perm (list : Shortlist ω) (size place : Nat) : (list.sink size place).Perm list := by
  fun_induction sink list size place with
  | case1 => exact .refl _
  | case2 list place below bounds found ahead induction =>
      exact induction.trans (list.swapIfInBounds_perm _ _)
  | case3 => exact .refl _

theorem resettle_perm (list : Shortlist ω) (size place : Nat) :
    (list.resettle size place).Perm list := by
  fun_induction resettle list size place with
  | case1 list place none => exact list.raise_perm place
  | case2 list place below bounds found induction =>
      exact induction.trans (list.swapIfInBounds_perm _ _)

theorem order_perm (size : Nat) (list : Shortlist ω) : (list.order size).Perm list := by
  induction size generalizing list with
  | zero => exact .refl _
  | succ size induction =>
      exact (induction _).trans ((sink_perm _ _ _).trans (list.swapIfInBounds_perm _ _))

theorem add_perm (list : Shortlist ω) (scored : Scored ω) :
    (list.add scored).toList.Perm (list.toList ++ [scored]) := by
  rw [← Array.toList_push]
  exact Array.perm_iff_toList_perm.mp (raise_perm _ _)

theorem cons_dropWeakest_perm (first : list[0]? = some weakest) :
    (weakest :: list.dropWeakest.toList).Perm list.toList := by
  obtain ⟨documents⟩ := list
  cases documents with
  | nil => simp at first
  | cons head later =>
      obtain rfl : head = weakest := by simpa using first
      have isLast : (⟨head :: later⟩ : Shortlist ω).back? =
          some ((head :: later).getLast (List.cons_ne_nil head later)) := by
        rw [List.back?_toArray, List.getLast?_eq_some_getLast]
      rw [dropWeakest, isLast]
      refine (List.Perm.cons _ (Array.perm_iff_toList_perm.mp (resettle_perm _ _ _))).trans ?_
      rw [Array.toList_setIfInBounds, Array.toList_pop]
      cases later with
      | nil => exact .refl _
      | cons next later =>
          have parted := List.dropLast_append_getLast (List.cons_ne_nil next later)
          rw [List.dropLast_cons_cons, List.set_cons_zero, List.getLast_cons_cons]
          refine List.Perm.cons _ ((List.perm_append_singleton _ _).symm.trans ?_)
          rw [parted]

theorem dropWeakest_subset (first : list[0]? = some weakest) :
    list.dropWeakest.toList ⊆ list.toList := fun _ member =>
  (cons_dropWeakest_perm first).subset (List.mem_cons_of_mem weakest member)

end Kept

/-! ## Heaps of keys -/

/-- The first place is right below the second one. -/
def IsBelow (below above : Nat) : Prop :=
  0 < below ∧ (below - 1) / 2 = above

theorem IsBelow.lt {below above : Nat} (isBelow : IsBelow below above) : above < below := by
  obtain ⟨beyond, rfl⟩ := isBelow
  omega

theorem IsBelow.unique {below above other : Nat} (isBelow : IsBelow below above)
    (isBelowOther : IsBelow below other) : above = other :=
  isBelow.2.symm.trans isBelowOther.2

section Keys

variable {α : Type} [LinearOrder α]

/-- No place below another one has a greater key. -/
def IsHeap (keys : Nat → α) (size : Nat) : Prop :=
  ∀ below above, below < size → IsBelow below above → keys below ≤ keys above

/-- The keys are those of a heap but for the key of one place. -/
structure Hole (keys : Nat → α) (size hole : Nat) : Prop where
  /-- Elsewhere no place has a greater key than the one above it. -/
  apart : ∀ below above, below < size → IsBelow below above → below ≠ hole → above ≠ hole →
    keys below ≤ keys above
  /-- Nor has a place right below the hole a greater key than the one right above it. -/
  across : ∀ below above, below < size → IsBelow below hole → IsBelow hole above →
    keys below ≤ keys above

/-- No place right below has a greater key. -/
def Tops (keys : Nat → α) (size place : Nat) : Prop :=
  ∀ below, below < size → IsBelow below place → keys below ≤ keys place

/-- The place right above, if there is one, has no smaller key. -/
def Hangs (keys : Nat → α) (place : Nat) : Prop :=
  ∀ above, IsBelow place above → keys place ≤ keys above

variable {keys : Nat → α} {size hole : Nat}

theorem Hole.isHeap (isHole : Hole keys size hole) (tops : Tops keys size hole)
    (hangs : Hangs keys hole) : IsHeap keys size := by
  intro below above inside isBelow
  by_cases lower : below = hole
  · exact lower ▸ hangs above (lower ▸ isBelow)
  · by_cases upper : above = hole
    · exact upper ▸ tops below inside (upper ▸ isBelow)
    · exact isHole.apart below above inside isBelow lower upper

/-- The hole moves up if its key is not smaller than the one above. -/
theorem Hole.up (isHole : Hole keys size hole) (tops : Tops keys size hole) {above : Nat}
    (isAbove : IsBelow hole above) (inside : hole < size) (rises : keys above ≤ keys hole) :
    Hole (keys ∘ Equiv.swap hole above) size above ∧
      Tops (keys ∘ Equiv.swap hole above) size above := by
  have differs := isAbove.lt.ne
  have kept : ∀ place, place ≠ hole → place ≠ above →
      (keys ∘ Equiv.swap hole above) place = keys place :=
    fun place apart elsewhere => congrArg keys (Equiv.swap_apply_of_ne_of_ne apart elsewhere)
  have atHole : (keys ∘ Equiv.swap hole above) hole = keys above :=
    congrArg keys (Equiv.swap_apply_left hole above)
  have atAbove : (keys ∘ Equiv.swap hole above) above = keys hole :=
    congrArg keys (Equiv.swap_apply_right hole above)
  have sibling : ∀ below, below < size → IsBelow below above → below ≠ hole →
      keys below ≤ keys above := fun below short isBelow apart =>
    isHole.apart below above short isBelow apart differs
  refine ⟨⟨?_, ?_⟩, ?_⟩
  · intro below top short isBelow lower upper
    have apart : below ≠ hole := by
      rintro rfl
      exact upper (isBelow.unique isAbove)
    rw [kept below apart lower]
    by_cases same : top = hole
    -- The key from above has come down to the hole, where `across` bounds what is below.
    · subst same
      rw [atHole]
      exact isHole.across below above short isBelow isAbove
    · rw [kept top same upper]
      exact isHole.apart below top short isBelow apart same
  · intro below top short isBelow isTop
    rw [kept top (isTop.lt.trans isAbove.lt).ne isTop.lt.ne]
    have highest : keys above ≤ keys top :=
      isHole.apart above top (isAbove.lt.trans inside) isTop differs (isTop.lt.trans isAbove.lt).ne
    by_cases same : below = hole
    · subst same
      rwa [atHole]
    · rw [kept below same isBelow.lt.ne']
      exact (sibling below short isBelow same).trans highest
  · intro below short isBelow
    rw [atAbove]
    by_cases same : below = hole
    · subst same
      rwa [atHole]
    · rw [kept below same isBelow.lt.ne']
      exact (sibling below short isBelow same).trans rises

/-- The hole moves down to the place below it that has the greatest key. -/
theorem Hole.down (isHole : Hole keys size hole) {below : Nat} (isBelow : IsBelow below hole)
    (inside : below < size)
    (greatest : ∀ other, other < size → IsBelow other hole → keys other ≤ keys below) :
    Hole (keys ∘ Equiv.swap hole below) size below := by
  have differs := isBelow.lt.ne
  have kept : ∀ place, place ≠ hole → place ≠ below →
      (keys ∘ Equiv.swap hole below) place = keys place :=
    fun place apart elsewhere => congrArg keys (Equiv.swap_apply_of_ne_of_ne apart elsewhere)
  have atHole : (keys ∘ Equiv.swap hole below) hole = keys below :=
    congrArg keys (Equiv.swap_apply_left hole below)
  constructor
  · intro lower upper short isLower lowerApart upperApart
    by_cases atTop : lower = hole
    · subst atTop
      rw [atHole, kept upper isLower.lt.ne upperApart]
      exact isHole.across below upper inside isBelow isLower
    · rw [kept lower atTop lowerApart]
      by_cases same : upper = hole
      · subst same
        rw [atHole]
        exact greatest lower short isLower
      · rw [kept upper same upperApart]
        exact isHole.apart lower upper short isLower atTop same
  · intro lower upper short isLower isUpper
    obtain rfl := isBelow.unique isUpper
    rw [atHole, kept lower (isBelow.lt.trans isLower.lt).ne' isLower.lt.ne']
    exact isHole.apart lower below short isLower (isBelow.lt.trans isLower.lt).ne' differs.symm

/-- The first place has the greatest key. -/
theorem IsHeap.le_first (heap : IsHeap keys size) {place : Nat} (inside : place < size) :
    keys place ≤ keys 0 := by
  induction place using Nat.strong_induction_on with
  | _ place induction =>
      rcases Nat.eq_zero_or_pos place with rfl | beyond
      · exact le_rfl
      · have isBelow : IsBelow place ((place - 1) / 2) := ⟨beyond, rfl⟩
        exact (heap place _ inside isBelow).trans
          (induction _ isBelow.lt (isBelow.lt.trans inside))

end Keys

/-! ## Keys of documents -/

section Documents

variable {ω κ : Type} (key : Scored ω → κ)

/-- The key of the document at a place. -/
def keyAt (list : Shortlist ω) (place : Nat) : WithBot κ :=
  (list[place]?).elim ⊥ fun scored => key scored

variable {list : Shortlist ω} {place : Nat}

theorem keyAt_eq (inside : place < list.size) : keyAt key list place = key list[place] := by
  rw [keyAt, Array.getElem?_eq_getElem inside]
  rfl

theorem keyAt_swapIfInBounds {left right : Nat} (leftInside : left < list.size)
    (rightInside : right < list.size) :
    keyAt key (list.swapIfInBounds left right) = keyAt key list ∘ Equiv.swap left right := by
  funext place
  rw [Function.comp_apply, Equiv.swap_apply_def, keyAt, Array.swapIfInBounds_def,
    dif_pos leftInside, dif_pos rightInside, Array.getElem?_swap]
  by_cases atRight : right = place
  · subst atRight
    rw [if_pos rfl]
    split
    · next same => subst same; rw [keyAt_eq key leftInside]; rfl
    · rw [if_pos rfl, keyAt_eq key leftInside]; rfl
  · rw [if_neg atRight]
    by_cases atLeft : left = place
    · subst atLeft
      rw [if_pos rfl, if_pos rfl, keyAt_eq key rightInside]
      rfl
    · rw [if_neg atLeft, if_neg (Ne.symm atLeft), if_neg (Ne.symm atRight), keyAt]

variable [LinearOrder κ] {size : Nat}

/-- From a place on, no document has a greater key before it. -/
def SettledFrom (list : Shortlist ω) (size : Nat) : Prop :=
  ∀ left right, left ≤ right → size ≤ right → right < list.size →
    keyAt key list left ≤ keyAt key list right

theorem SettledFrom.swap (settled : SettledFrom key list size) {left right : Nat}
    (leftInside : left < size) (rightInside : right < size) (short : size ≤ list.size) :
    SettledFrom key (list.swapIfInBounds left right) size := by
  intro before after ordered beyond inside
  rw [Array.size_swapIfInBounds] at inside
  have fixed : ∀ place, size ≤ place → Equiv.swap left right place = place := fun place far =>
    Equiv.swap_apply_of_ne_of_ne (by omega) (by omega)
  have near : Equiv.swap left right before ≤ after := by
    rw [Equiv.swap_apply_def]
    split <;> [omega; split <;> omega]
  rw [keyAt_swapIfInBounds key (leftInside.trans_le short) (rightInside.trans_le short),
    Function.comp_apply, Function.comp_apply, fixed after beyond]
  exact settled _ after near beyond inside

variable [Arithmetic ω] {key}

theorem precedesAt_iff (compares : Ranking.ComparesBy key list.toList) {left right : Nat}
    (leftInside : left < list.size) (rightInside : right < list.size) :
    list.precedesAt left right = true ↔ keyAt key list left < keyAt key list right := by
  rw [precedesAt, keyAt_eq key leftInside, keyAt_eq key rightInside,
    Array.getElem?_eq_getElem leftInside, Array.getElem?_eq_getElem rightInside, WithBot.coe_lt_coe]
  exact compares _ (Array.mem_toList_iff.mpr (Array.getElem_mem leftInside)) _
    (Array.mem_toList_iff.mpr (Array.getElem_mem rightInside))

/-! ## Moving a document up and down -/

theorem isHeap_raise (compares : Ranking.ComparesBy key list.toList)
    (isHole : Hole (keyAt key list) list.size place)
    (tops : Tops (keyAt key list) list.size place) (inside : place < list.size) :
    IsHeap (keyAt key (list.raise place)) list.size := by
  fun_induction raise list place with
  | case1 list place above ahead induction =>
      have isAbove : IsBelow place above := ⟨ahead.1, rfl⟩
      have aboveInside : above < list.size := isAbove.lt.trans inside
      have rises := (precedesAt_iff compares aboveInside inside).mp ahead.2
      obtain ⟨moved, topsMoved⟩ := isHole.up tops isAbove inside rises.le
      rw [← keyAt_swapIfInBounds key inside aboveInside] at moved topsMoved
      have raised := induction (compares.of_subset (swap_subset _ _ _)) (by simpa using moved)
        (by simpa using topsMoved) (by simpa using aboveInside)
      simpa using raised
  | case2 list place above stops =>
      refine isHole.isHeap tops fun other isAbove => ?_
      obtain rfl : above = other := isAbove.2
      have settled : ¬ list.precedesAt above place = true := fun ahead => stops ⟨isAbove.1, ahead⟩
      exact not_lt.mp fun rises =>
        settled ((precedesAt_iff compares (isAbove.lt.trans inside) inside).mpr rises)

theorem IsBelow.eq_or_eq {below above : Nat} (isBelow : IsBelow below above) :
    below = 2 * above + 1 ∨ below = 2 * above + 2 := by
  obtain ⟨beyond, rfl⟩ := isBelow
  omega

theorem not_isBelow_of_weakerBelow? (none : list.weakerBelow? size place = none) {below : Nat}
    (inside : below < size) : ¬ IsBelow below place := by
  intro isBelow
  have either := isBelow.eq_or_eq
  rw [weakerBelow?] at none
  split at none
  · split at none <;> simp at none
  · split at none
    · simp at none
    · omega

theorem isBelow_of_weakerBelow? (compares : Ranking.ComparesBy key list.toList)
    (short : size ≤ list.size) {below : { below : Nat // place < below ∧ below < size }}
    (found : list.weakerBelow? size place = some below) :
    IsBelow below.1 place ∧ ∀ other, other < size → IsBelow other place →
      keyAt key list other ≤ keyAt key list below.1 := by
  rw [weakerBelow?] at found
  split at found
  · next both =>
      have compared := precedesAt_iff compares (by omega : 2 * place + 1 + 1 < list.size)
        (by omega : 2 * place + 1 < list.size)
      split at found
      · next ahead =>
          obtain rfl := Option.some.inj found
          refine ⟨⟨by simp, by dsimp only; omega⟩, fun other inside isBelow => ?_⟩
          rcases isBelow.eq_or_eq with rfl | rfl
          · exact le_rfl
          · exact (compared.mp ahead).le
      · next behind =>
          obtain rfl := Option.some.inj found
          refine ⟨⟨by simp, by dsimp only; omega⟩, fun other inside isBelow => ?_⟩
          rcases isBelow.eq_or_eq with rfl | rfl
          · exact not_lt.mp fun rises => behind (compared.mpr rises)
          · exact le_rfl
  · split at found
    · obtain rfl := Option.some.inj found
      refine ⟨⟨by simp, by dsimp only; omega⟩, fun other inside isBelow => ?_⟩
      rcases isBelow.eq_or_eq with rfl | rfl
      · exact le_rfl
      · omega
    · cases found

theorem isHeap_resettle (compares : Ranking.ComparesBy key list.toList)
    (isHole : Hole (keyAt key list) size place) (inside : place < size) (whole : size = list.size) :
    IsHeap (keyAt key (list.resettle size place)) size := by
  fun_induction resettle list size place with
  | case1 list place none =>
      subst whole
      exact isHeap_raise compares isHole
        (fun below short isBelow => absurd isBelow (not_isBelow_of_weakerBelow? none short)) inside
  | case2 list place below bounds found induction =>
      obtain ⟨isBelow, greatest⟩ := isBelow_of_weakerBelow? compares whole.le found
      have moved := isHole.down isBelow bounds.2 greatest
      rw [← keyAt_swapIfInBounds key (whole ▸ inside) (whole ▸ bounds.2)] at moved
      exact induction (compares.of_subset (swap_subset _ _ _)) moved bounds.2 (by simpa using whole)

theorem isHeap_add {scored : Scored ω} (compares : Ranking.ComparesBy key (list.push scored).toList)
    (heap : IsHeap (keyAt key list) list.size) :
    IsHeap (keyAt key (list.add scored)) (list.add scored).size := by
  have same : ∀ place, place < list.size →
      keyAt key (list.push scored) place = keyAt key list place := by
    intro place inside
    rw [keyAt, keyAt, Array.getElem?_push_lt inside, Array.getElem?_eq_getElem inside]
  have isHole : Hole (keyAt key (list.push scored)) (list.push scored).size list.size := by
    constructor
    · intro below above inside isBelow lower upper
      have belowInside : below < list.size := by
        rw [Array.size_push] at inside
        omega
      rw [same below belowInside, same above (isBelow.lt.trans belowInside)]
      exact heap below above belowInside isBelow
    · intro below above inside isBelow _
      rw [Array.size_push] at inside
      exact absurd isBelow.lt (by omega)
  have tops : Tops (keyAt key (list.push scored)) (list.push scored).size list.size := by
    intro below inside isBelow
    rw [Array.size_push] at inside
    exact absurd isBelow.lt (by omega)
  rw [size_add, add, ← Array.size_push scored]
  exact isHeap_raise compares isHole tops (by simp)

theorem isHeap_dropWeakest (compares : Ranking.ComparesBy key list.toList)
    (heap : IsHeap (keyAt key list) list.size) :
    IsHeap (keyAt key list.dropWeakest) list.dropWeakest.size := by
  rw [size_dropWeakest, dropWeakest]
  split
  · next none =>
      obtain rfl : list = #[] := by simpa using none
      exact heap
  · next last isLast =>
      rw [Array.size_pop]
      rcases Nat.eq_zero_or_pos (list.size - 1) with few | many
      · rw [few]
        exact fun below above inside => absurd inside (Nat.not_lt_zero below)
      · have same : ∀ place, place ≠ 0 → place < list.size - 1 →
            keyAt key (list.pop.setIfInBounds 0 last) place = keyAt key list place := by
          intro place beyond inside
          rw [keyAt, keyAt, Array.getElem?_setIfInBounds_ne (Ne.symm beyond), Array.getElem?_pop,
            if_pos inside]
        refine isHeap_resettle (compares.of_subset fun scored member => ?_) ⟨?_, ?_⟩ many (by simp)
        · rw [Array.toList_setIfInBounds, Array.toList_pop] at member
          rcases List.mem_or_eq_of_mem_set member with kept | rfl
          · exact List.dropLast_subset _ kept
          · exact Array.mem_toList_iff.mpr (Array.mem_of_getElem? isLast)
        · intro below above inside isBelow lower upper
          rw [same below lower inside, same above upper (isBelow.lt.trans inside)]
          exact heap below above (by omega) isBelow
        · intro below above inside isBelow isAbove
          exact absurd isAbove.1 (Nat.lt_irrefl 0)

/-! ## The order of a heap -/

theorem SettledFrom.sink (settled : SettledFrom key list size) (short : size ≤ list.size)
    (place : Nat) : SettledFrom key (list.sink size place) size := by
  fun_induction Shortlist.sink list size place with
  | case1 => exact settled
  | case2 list place below bounds found ahead induction =>
      exact induction (settled.swap key (bounds.1.trans bounds.2) bounds.2 short) (by simpa using short)
  | case3 => exact settled

end Documents

end Shortlist

end Retrieval
