/-!
# Sorting short lists

Stable sorting of short lists by insertion and by merging. A test `less` may contradict itself, so
that the result depends on the pairs that are tested; in any case it is a permutation of the list.
-/

namespace Retrieval.Sorting

variable {α : Type} (less : α → α → Bool)

/-- Inserts an element into elements that are given from the last to the first, behind all those that
it is not less than. -/
def insertBackwards (element : α) : List α → List α
  | [] => [element]
  | last :: earlier =>
      if less element last then last :: insertBackwards element earlier
      else element :: last :: earlier

/-- Inserts elements into sorted ones, one after the other. -/
def insertEach (sorted elements : List α) : List α :=
  (elements.foldl (fun backwards element => insertBackwards less element backwards)
    sorted.reverse).reverse

/-- Merges sorted lists that are given from the last element to the first. Of elements that are not
less than each other, those of the right list come first. -/
def mergeBackwards : List α → List α → List α
  | [], right => right
  | left, [] => left
  | last :: left, other :: right =>
      if less other last then last :: mergeBackwards left (other :: right)
      else other :: mergeBackwards (last :: left) right

/-- Merges sorted lists. The first `count` elements are taken from the front and the others from the
back. -/
def merge : Nat → List α → List α → List α
  | 0, left, right => (mergeBackwards less left.reverse right.reverse).reverse
  | _ + 1, [], right => right
  | _ + 1, left, [] => left
  | count + 1, first :: left, other :: right =>
      if less other first then other :: merge count (first :: left) right
      else first :: merge count left (other :: right)

/-- Sorts four elements: two pairs, then the least and the greatest of all, then the other two. -/
def sortFour (first second third fourth : α) : List α :=
  let (first, second) := if less second first then (second, first) else (first, second)
  let (third, fourth) := if less fourth third then (fourth, third) else (third, fourth)
  match less third first, less fourth second with
  | false, false => first :: merge less 2 [second] [third] ++ [fourth]
  | false, true => first :: merge less 2 [third] [fourth] ++ [second]
  | true, false => third :: merge less 2 [first] [second] ++ [fourth]
  | true, true => third :: merge less 2 [first] [fourth] ++ [second]

/-- Sorts four or eight elements. -/
def sortStart : List α → List α
  | [first, second, third, fourth] => sortFour less first second third fourth
  | [first, second, third, fourth, fifth, sixth, seventh, eighth] =>
      merge less 4 (sortFour less first second third fourth)
        (sortFour less fifth sixth seventh eighth)
  | list => list

/-- Sorts a list of which the first `start` elements are sorted at once and the others are inserted. -/
def sortFrom (start : Nat) (list : List α) : List α :=
  insertEach less (sortStart less (list.take start)) (list.drop start)

/-- Sorts a short list: its halves, which are merged from both ends. -/
def sortShort (list : List α) : List α :=
  let half := list.length / 2
  let start := if 16 ≤ list.length then 8 else if 8 ≤ list.length then 4 else 1
  merge less half (sortFrom less start (list.take half)) (sortFrom less start (list.drop half))

theorem insertBackwards_perm (element : α) (list : List α) :
    (insertBackwards less element list).Perm (element :: list) := by
  induction list with
  | nil => exact .refl _
  | cons last earlier ih =>
      unfold insertBackwards
      split
      · exact (ih.cons last).trans (.swap element last earlier)
      · exact .refl _

theorem insertEach_perm (sorted elements : List α) :
    (insertEach less sorted elements).Perm (sorted ++ elements) := by
  suffices ∀ backwards : List α,
      (elements.foldl (fun backwards element => insertBackwards less element backwards)
        backwards).Perm (backwards ++ elements) from
    (List.reverse_perm _).trans
      ((this sorted.reverse).trans ((List.reverse_perm sorted).append_right elements))
  induction elements with
  | nil => simp
  | cons element later ih =>
      exact fun backwards => (ih _).trans
        (((insertBackwards_perm less element backwards).append_right later).trans
          List.perm_middle.symm)

theorem mergeBackwards_perm (left right : List α) :
    (mergeBackwards less left right).Perm (left ++ right) := by
  fun_induction mergeBackwards less left right with
  | case1 => simp
  | case2 => simp
  | case3 _ _ _ _ _ ih => exact ih.cons _
  | case4 _ _ _ _ _ ih => exact (ih.cons _).trans List.perm_middle.symm

theorem merge_perm (count : Nat) (left right : List α) :
    (merge less count left right).Perm (left ++ right) := by
  fun_induction merge less count left right with
  | case1 left right =>
      exact (List.reverse_perm _).trans ((mergeBackwards_perm less _ _).trans
        ((List.reverse_perm left).append (List.reverse_perm right)))
  | case2 => simp
  | case3 => simp
  | case4 _ _ _ _ _ _ ih => exact (ih.cons _).trans List.perm_middle.symm
  | case5 _ _ _ _ _ _ ih => exact ih.cons _

theorem sortFour_perm (first second third fourth : α) :
    (sortFour less first second third fourth).Perm [first, second, third, fourth] := by
  have : DecidableEq α := fun _ _ => Classical.propDecidable _
  have count (element left right : α) :
      (merge less 2 [left] [right]).count element = [left, right].count element :=
    (merge_perm less 2 [left] [right]).count_eq element
  refine List.perm_iff_count.mpr fun element => ?_
  unfold sortFour
  cases less second first <;> cases less fourth third <;> dsimp only <;> split <;>
    simp [List.count_cons, count] <;> omega

theorem sortStart_perm (list : List α) : (sortStart less list).Perm list := by
  unfold sortStart
  split
  · exact sortFour_perm less _ _ _ _
  · exact (merge_perm less 4 _ _).trans
      ((sortFour_perm less _ _ _ _).append (sortFour_perm less _ _ _ _))
  · exact .refl _

theorem sortFrom_perm (start : Nat) (list : List α) : (sortFrom less start list).Perm list := by
  have joined := (insertEach_perm less (sortStart less (list.take start)) (list.drop start)).trans
    ((sortStart_perm less (list.take start)).append_right (list.drop start))
  rwa [List.take_append_drop] at joined

theorem sortShort_perm (list : List α) : (sortShort less list).Perm list := by
  have joined (start half : Nat) := (merge_perm less half (sortFrom less start (list.take half))
    (sortFrom less start (list.drop half))).trans
      ((sortFrom_perm less start (list.take half)).append
        (sortFrom_perm less start (list.drop half)))
  simp only [List.take_append_drop] at joined
  exact joined _ _

end Retrieval.Sorting
