import Retrieval.Sorting.Short

/-!
# Sorting long lists

Stable sorting of long lists by runs and by partition. A list falls into runs: sequences that are in
order already, and pieces that are not. Neighbouring runs are merged where a balanced tree over the
list would join them; pieces out of order are joined as long as possible and then sorted by
partition, which falls back on runs when too many pivots were bad. As with short lists, the result is
a permutation of the list whatever the test says.
-/

namespace Retrieval.Sorting

variable {α : Type} (less : α → α → Bool)

/-- A part of a list. -/
structure Run (α : Type) where
  /-- The elements of the part. -/
  elements : List α
  /-- The elements are in order. -/
  sorted : Bool

/-- The greatest length of a list that counts as short. -/
def shortLength : Nat := 32

/-! ## Runs -/

/-- The number of elements from the first one on of which each pair of neighbours passes a test. -/
def runLength (test : α → α → Bool) : List α → Nat
  | [] => 0
  | [_] => 1
  | first :: second :: later =>
      if test first second then runLength test (second :: later) + 1 else 1

/-- The sequence in order at the beginning of a list, and what follows it. A falling sequence is
turned round. -/
def leadingRun (list : List α) : List α × List α :=
  let falling := runLength (fun first second => less second first) list
  if 1 < falling then ((list.take falling).reverse, list.drop falling)
  else
    let rising := runLength (fun first second => !less second first) list
    (list.take rising, list.drop rising)

/-- The first run of a list, and what follows it. A sequence in order counts as a run if it has at
least `good` elements. Otherwise the run is a short list, sorted at once if `eager`. -/
def firstRun (eager : Bool) (good : Nat) (list : List α) : Run α × List α :=
  let (leading, later) := leadingRun less list
  if good ≤ leading.length then (⟨leading, true⟩, later)
  else if eager then (⟨sortShort less (list.take shortLength), true⟩, list.drop shortLength)
  else (⟨list.take good, false⟩, list.drop good)

/-- The runs of a list, at most `count` of them and a last one. -/
def splitRuns (eager : Bool) (good : Nat) : Nat → List α → List (Run α)
  | 0, list => [⟨list, false⟩]
  | count + 1, list =>
      if list.isEmpty then []
      else
        let (run, later) := firstRun less eager good list
        run :: splitRuns eager good count later

/-- A number near the square root. -/
def nearRoot (number : Nat) : Nat :=
  let half := (1 + number.log2) / 2
  (Nat.pow 2 half + number / Nat.pow 2 half) / 2

/-- The least length of a sequence in order that counts as a run of a list. -/
def goodLength (length : Nat) : Nat :=
  if length ≤ 4096 then min (length - length / 2) 64 else nearRoot length

/-! ## Merging runs -/

/-- The elements of a run in order, given how those of a run out of order are sorted. -/
def Run.inOrder (sortPiece : List α → List α) (run : Run α) : List α :=
  if run.sorted then run.elements else sortPiece run.elements

/-- Joins neighbouring runs. They are merged if one of them is in order; the shorter one decides from
which side. -/
def Run.join (sortPiece : List α → List α) (left right : Run α) : Run α :=
  if left.sorted || right.sorted then
    let count :=
      if left.elements.length ≤ right.elements.length then
        left.elements.length + right.elements.length
      else 0
    ⟨merge less count (left.inOrder sortPiece) (right.inOrder sortPiece), true⟩
  else ⟨left.elements ++ right.elements, false⟩

/-- The depth at which a balanced tree over a list of the given length joins neighbouring runs, which
begin at `start`, meet at `middle` and end at `stop`: the number of leading binary digits that the
centres of the two runs have in common, of 64. -/
def joinDepth (length start middle stop : Nat) : Nat :=
  let scale := (Nat.pow 2 62 + length - 1) / length
  let difference := Nat.xor (scale * (start + middle)) (scale * (middle + stop))
  if difference = 0 then 64 else 63 - difference.log2

/-- Joins a run with those before it that are to be joined at the given depth or deeper. Each run
before it is given with the depth at which it is joined with the next one, the nearest first. -/
def joinBack (sortPiece : List α → List α) (depth : Nat) :
    List (Run α × Nat) → Run α → Run α × List (Run α × Nat)
  | [], run => (run, [])
  | (left, ownDepth) :: earlier, run =>
      if depth ≤ ownDepth then joinBack sortPiece depth earlier (left.join less sortPiece run)
      else (run, (left, ownDepth) :: earlier)

/-- Joins all runs of a list of the given length: those before `run` in `earlier`, `run` itself, which
ends at `stop`, and the later ones. -/
def joinRuns (sortPiece : List α → List α) (length : Nat) :
    Nat → List (Run α × Nat) → Run α → List (Run α) → Run α
  | _, earlier, run, [] => (joinBack less sortPiece 0 earlier run).1
  | stop, earlier, run, next :: later =>
      let nextStop := stop + next.elements.length
      let depth := joinDepth length (stop - run.elements.length) stop nextStop
      let (joined, earlier) := joinBack less sortPiece depth earlier run
      joinRuns sortPiece length nextStop ((joined, depth) :: earlier) next later

/-- Sorts a list by its runs. -/
def sortRuns (eager : Bool) (sortPiece : List α → List α) (list : List α) : List α :=
  match splitRuns less eager (goodLength list.length) list.length list with
  | [] => []
  | run :: later =>
      (joinRuns less sortPiece list.length run.elements.length [] run later).inOrder sortPiece

/-! ## Partition -/

/-- The element at one place is less than the element at another. -/
def lessAt (list : List α) (left right : Nat) : Bool :=
  match list[left]?, list[right]? with
  | some first, some second => less first second
  | _, _ => false

/-- The place of the median of three elements. -/
def median (list : List α) (first second third : Nat) : Nat :=
  let belowSecond := lessAt less list first second
  if belowSecond = lessAt less list first third then
    if lessAt less list second third = belowSecond then second else third
  else first

/-- The place of the median of three sections of the given width, of each of which the median is
taken in the same way if it is wide enough. -/
def medianOfSections (list : List α) (width first second third : Nat) : Nat :=
  if _ : 8 ≤ width then
    let eighth := width / 8
    let within (start : Nat) :=
      medianOfSections list eighth start (start + 4 * eighth) (start + 7 * eighth)
    median less list (within first) (within second) (within third)
  else median less list first second third
termination_by width

/-- The place of the element by which a list is partitioned. -/
def pivotPlace (list : List α) : Nat :=
  let eighth := list.length / 8
  medianOfSections less list eighth 0 (4 * eighth) (7 * eighth)

/-- The elements that pass a test, and the others. The element at `place` counts as `first` says. -/
def partitionAt (place : Nat) (first : Bool) (test : α → Bool) (list : List α) :
    List α × List α :=
  let (passed, failed) := list.zipIdx.partition fun (element, index) =>
    if index = place then first else test element
  (passed.map Prod.fst, failed.map Prod.fst)

/-- Sorts by partition, at most `limit` times in a row. An earlier pivot, which is nowhere less than
the elements of the list, tells when the new pivot is equal to it; then all equal elements are in
their place. -/
def quickSort : Nat → Option α → List α → List α
  | limit, earlier, list =>
      if list.length ≤ shortLength then sortShort less list
      else
        match limit, list[pivotPlace less list]? with
        | 0, _ => sortRuns less true id list
        | _, none => list
        | limit + 1, some pivot =>
            let place := pivotPlace less list
            let parts := partitionAt place false (fun element => less element pivot) list
            if parts.1.isEmpty || earlier.any (fun other => !less other pivot) then
              let parts := partitionAt place true (fun element => !less pivot element) list
              parts.1 ++ quickSort limit none parts.2
            else quickSort limit earlier parts.1 ++ quickSort limit (some pivot) parts.2

/-- Sorts a piece out of order. -/
def sortPiece (list : List α) : List α :=
  quickSort less (2 * list.length.log2) none list

/-! ## The sort -/

/-- The greatest length of a list that is sorted by insertion alone. -/
def insertionLength : Nat := 20

/-- Sorts a list. -/
def sort (list : List α) : List α :=
  if list.length ≤ insertionLength then insertEach less [] list
  else sortRuns less (list.length ≤ 2 * shortLength) (sortPiece less) list

/-! ## Permutations -/

/-- The elements of runs in their order. -/
def elementsOf (runs : List (Run α)) : List α :=
  runs.flatMap (·.elements)

theorem leadingRun_perm (list : List α) :
    ((leadingRun less list).1 ++ (leadingRun less list).2).Perm list := by
  unfold leadingRun
  dsimp only
  split
  · exact ((List.reverse_perm _).append_right _).trans (.of_eq (List.take_append_drop _ _))
  · exact .of_eq (List.take_append_drop _ _)

theorem firstRun_perm (eager : Bool) (good : Nat) (list : List α) :
    ((firstRun less eager good list).1.elements ++ (firstRun less eager good list).2).Perm list := by
  unfold firstRun
  dsimp only
  split
  · exact leadingRun_perm less list
  · split
    · exact ((sortShort_perm less _).append_right _).trans (.of_eq (List.take_append_drop _ _))
    · exact .of_eq (List.take_append_drop _ _)

theorem splitRuns_perm (eager : Bool) (good count : Nat) (list : List α) :
    (elementsOf (splitRuns less eager good count list)).Perm list := by
  induction count generalizing list with
  | zero => simp [splitRuns, elementsOf]
  | succ count ih =>
      unfold splitRuns
      split
      · simp_all [elementsOf]
      · simp only [elementsOf, List.flatMap_cons]
        exact ((ih _).append_left _).trans (firstRun_perm less eager good list)

section

variable {less} {sortPiece : List α → List α} (keeps : ∀ piece, (sortPiece piece).Perm piece)

include keeps

theorem Run.inOrder_perm (run : Run α) : (run.inOrder sortPiece).Perm run.elements := by
  unfold Run.inOrder
  split
  · exact .refl _
  · exact keeps _

theorem Run.join_perm (left right : Run α) :
    (left.join less sortPiece right).elements.Perm (left.elements ++ right.elements) := by
  unfold Run.join
  split
  · exact (merge_perm less _ _ _).trans ((left.inOrder_perm keeps).append (right.inOrder_perm keeps))
  · exact .refl _

theorem joinBack_perm (depth : Nat) (earlier : List (Run α × Nat)) (run : Run α) :
    (elementsOf ((joinBack less sortPiece depth earlier run).2.reverse.map Prod.fst)
        ++ (joinBack less sortPiece depth earlier run).1.elements).Perm
      (elementsOf (earlier.reverse.map Prod.fst) ++ run.elements) := by
  induction earlier generalizing run with
  | nil => simp [joinBack]
  | cons nearest earlier ih =>
      obtain ⟨left, ownDepth⟩ := nearest
      unfold joinBack
      split
      · refine (ih _).trans (((Run.join_perm keeps left run).append_left _).trans ?_)
        simp [elementsOf]
      · exact .refl _

omit keeps in
theorem joinBack_zero (earlier : List (Run α × Nat)) (run : Run α) :
    (joinBack less sortPiece 0 earlier run).2 = [] := by
  induction earlier generalizing run with
  | nil => rfl
  | cons nearest earlier ih => simp [joinBack, ih]

theorem joinRuns_perm (length stop : Nat) (earlier : List (Run α × Nat)) (run : Run α)
    (later : List (Run α)) :
    (joinRuns less sortPiece length stop earlier run later).elements.Perm
      (elementsOf (earlier.reverse.map Prod.fst) ++ run.elements ++ elementsOf later) := by
  induction later generalizing stop earlier run with
  | nil =>
      have joined := @joinBack_perm α less _ keeps 0 earlier run
      simpa [joinBack_zero, joinRuns, elementsOf] using joined
  | cons next later ih =>
      unfold joinRuns
      refine (ih _ _ _).trans ?_
      simp only [List.reverse_cons, List.map_append, List.map_cons, List.map_nil]
      have joined := (@joinBack_perm α less _ keeps
        (joinDepth length (stop - run.elements.length) stop (stop + next.elements.length))
        earlier run).append_right (next.elements ++ elementsOf later)
      simpa [elementsOf, List.append_assoc] using joined

theorem sortRuns_perm (eager : Bool) (list : List α) :
    (sortRuns less eager sortPiece list).Perm list := by
  have split := splitRuns_perm less eager (goodLength list.length) list.length list
  unfold sortRuns
  match runs : splitRuns less eager (goodLength list.length) list.length list with
  | [] => simpa [runs, elementsOf] using split
  | run :: later =>
      rw [runs] at split
      refine (Run.inOrder_perm keeps _).trans ((joinRuns_perm keeps _ _ [] run later).trans ?_)
      simpa [elementsOf] using split

end

theorem partitionAt_perm (place : Nat) (first : Bool) (test : α → Bool) (list : List α) :
    ((partitionAt place first test list).1 ++ (partitionAt place first test list).2).Perm list := by
  unfold partitionAt
  simp only [List.partition_eq_filter_filter, ← List.map_append]
  have whole := (List.filter_append_perm (fun pair : α × Nat =>
    if pair.2 = place then first else test pair.1) list.zipIdx).map Prod.fst
  rwa [List.zipIdx_map_fst] at whole

theorem quickSort_perm (limit : Nat) (earlier : Option α) (list : List α) :
    (quickSort less limit earlier list).Perm list := by
  induction limit generalizing earlier list with
  | zero =>
      unfold quickSort
      split
      · exact sortShort_perm less list
      · exact sortRuns_perm (fun piece => .refl piece) true list
  | succ limit ih =>
      unfold quickSort
      split
      · exact sortShort_perm less list
      · split
        · contradiction
        · exact .refl _
        · rename_i rest pivot same found
          obtain rfl : limit = rest := Nat.succ.inj same
          dsimp only
          split
          · exact ((ih _ _).append_left _).trans (partitionAt_perm _ _ _ list)
          · exact ((ih _ _).append (ih _ _)).trans (partitionAt_perm _ _ _ list)

/-- Sorting keeps all elements, whatever the test says. -/
theorem sort_perm (list : List α) : (sort less list).Perm list := by
  unfold sort
  split
  · simpa using insertEach_perm less [] list
  · exact sortRuns_perm (fun piece => quickSort_perm less _ none piece) _ list

end Retrieval.Sorting
