import Retrieval.Proofs.Cursor.Leaping
import Retrieval.Proofs.Cursor.Rewinding
import Retrieval.Proofs.Posting.Positions

/-!
# The search for common documents

The operands of a proximity operator look for the documents that all of their lists have. Wherever they
stand the search ends on the next such document. A merge repeats it and moves all operands past what it
has found, and by this movement their positions begin anew.
-/

namespace Retrieval.Cursor

variable {ω : Type} {cursor : Cursor ω} {cursors : List (Cursor ω)}
  {list : InvertedList} {lists : List InvertedList} {document : DocumentId}

/-! ## Cursors on their way -/

/-- The cursor has been opened on the list, and has been moved among its documents and positions since
then. -/
inductive Reached (list : InvertedList) : Cursor ω → Prop
  | opened {cursor : Cursor ω} (known : cursor.reader? = some (.ofList list)) : Reached list cursor
  | advancePast {cursor : Cursor ω} (document : DocumentId) (before : Reached list cursor) :
      Reached list (cursor.advancePast document)
  | advanceTo {cursor : Cursor ω} (document : DocumentId) (before : Reached list cursor) :
      Reached list (cursor.advanceTo document)
  | amongPositions {cursor moved : Cursor ω} (before : Reached list cursor)
      (same : SamePosting cursor moved) : Reached list moved

/-- But for the positions that have been passed, a cursor on its way reads its list from some bound
on. -/
theorem reached_iff (ascending : list.Ascending) :
    Reached list cursor ↔ ∃ bound, cursor.rewind.reader? = some (.since bound list) := by
  constructor
  · intro reached
    induction reached with
    | opened known => exact ⟨0, by rw [reader?_rewind, known, Reader.since_zero]; rfl⟩
    | advancePast document _ induction =>
        obtain ⟨bound, known⟩ := induction
        rw [rewind_advancePast, reader?_advancePast known, Reader.skip_le_eq,
          Reader.skip_since ascending]
        exact ⟨_, rfl⟩
    | advanceTo document _ induction =>
        obtain ⟨bound, known⟩ := induction
        rw [rewind_advanceTo, reader?_advanceTo known, Reader.skip_since ascending]
        exact ⟨_, rfl⟩
    | amongPositions _ same induction => exact same ▸ induction
  · rintro ⟨bound, known⟩
    have moved : (Reader.ofList list).skip (· < bound) = .since bound list := by
      rw [← Reader.since_zero, Reader.skip_since ascending, Nat.zero_max]
    -- The cursor is reached by a single movement to the bound, with its positions passed behind it.
    let opened := cursor.mapReader fun _ => .ofList list
    rw [reader?_rewind] at known
    obtain ⟨reader, inside, reset⟩ := Option.map_eq_some_iff.mp known
    cases cursor with
    | scoring => simp [reader?] at inside
    | term | list =>
        simp only [reader?] at inside
        subst inside
        have start : opened.reader? = some (.ofList list) := rfl
        refine .amongPositions (.advanceTo bound (.opened start)) ?_
        simp only [SamePosting, opened, mapReader, Option.map_some, advanceTo, moved, rewind, reset]
        rfl

/-- But for the positions that have been passed, the cursors read the lists from the bounds on. -/
def ReadFrom (places : List (DocumentId × InvertedList)) (cursors : List (Cursor ω)) : Prop :=
  List.Forall₂ (fun place cursor => cursor.rewind.reader? = some (.since place.1 place.2)) places
    cursors

/-- The documents that all lists have, at or after the document of every cursor. -/
def commonAhead (lists : List InvertedList) (cursors : List (Cursor ω)) : Set DocumentId :=
  {document | (∀ list ∈ lists, document ∈ list.documents) ∧
    ∀ cursor ∈ cursors, ∃ here, cursor.current? = some here ∧ here ≤ document}

/-- At or after the cursors are the documents from the bounds from which they read. -/
theorem commonAhead_eq {places : List (DocumentId × InvertedList)}
    (ascending : ∀ place ∈ places, place.2.Ascending)
    (read : ReadFrom places cursors) :
    commonAhead (places.map Prod.snd) cursors = InvertedList.commonBeyond places := by
  ext document
  constructor
  · rintro ⟨shared, ahead⟩ place among
    obtain ⟨cursor, inside, known⟩ := exists_of_mem_forall₂ read among
    obtain ⟨here, current, below⟩ := ahead cursor inside
    have next := Reader.isNext_since (ascending place among) place.1
    rw [← current?_rewind, current?_of_reader? known] at current
    exact ⟨(next.mem current).2.trans below, shared _ (List.mem_map_of_mem among)⟩
  · intro member
    refine ⟨List.forall_mem_map.mpr fun place among => (member place among).2, ?_⟩
    intro cursor inside
    obtain ⟨place, among, known⟩ := exists_of_mem_forall₂ read.flip inside
    obtain ⟨reached, present⟩ := member place among
    have next := Reader.isNext_since (ascending place among) place.1
    obtain ⟨here, current, below⟩ := next.exists_of_mem ⟨present, reached⟩
    rw [← current?_of_reader? known, current?_rewind] at current
    exact ⟨here, current, below⟩

theorem exists_places (ascending : ∀ list ∈ lists, list.Ascending)
    (reached : List.Forall₂ Reached lists cursors) :
    ∃ places : List (DocumentId × InvertedList), places.map Prod.snd = lists ∧
      ReadFrom places cursors := by
  induction reached with
  | nil => exact ⟨[], rfl, .nil⟩
  | @cons list cursor _ _ head _ induction =>
      obtain ⟨ascends, ascendLater⟩ := List.forall_mem_cons.mp ascending
      obtain ⟨bound, known⟩ := (reached_iff ascends).mp head
      obtain ⟨places, rfl, read⟩ := induction ascendLater
      exact ⟨(bound, list) :: places, rfl, .cons known read⟩

theorem exists_reader? {places : List (DocumentId × InvertedList)}
    (read : ReadFrom places cursors) : ∀ cursor ∈ cursors, ∃ reader, cursor.reader? = some reader := by
  intro cursor among
  obtain ⟨place, -, known⟩ := exists_of_mem_forall₂ read.flip among
  rw [reader?_rewind] at known
  obtain ⟨reader, inside, -⟩ := Option.map_eq_some_iff.mp known
  exact ⟨reader, inside⟩

/-! ## Merges -/

/-- A merge finds common documents until there is no other, each with the positions that the cursors have
not passed in it. `work` is done on the cursors before they move past the document. -/
inductive Visits (work : DocumentId → List (Cursor ω) → List (Cursor ω)) :
    List (Cursor ω) → List (DocumentId × List (List Nat)) → List (Cursor ω) → Prop
  | ended {cursors final : List (Cursor ω)} (search : Leaps cursors none final) :
      Visits work cursors [] final
  | found {cursors standing final : List (Cursor ω)} {document : DocumentId}
      {visits : List (DocumentId × List (List Nat))}
      (search : Leaps cursors (some document) standing)
      (next : Visits work ((work document standing).map (advancePast document)) visits final) :
      Visits work cursors ((document, standing.map unread) :: visits) final

/-- The merge comes to one end only. -/
theorem Visits.unique {work : DocumentId → List (Cursor ω) → List (Cursor ω)}
    {visits other : List (DocumentId × List (List Nat))} {final last : List (Cursor ω)}
    (merge : Visits work cursors visits final) (another : Visits work cursors other last) :
    other = visits ∧ last = final := by
  induction merge generalizing other last with
  | ended search =>
      cases another with
      | ended again => exact ⟨rfl, (search.unique again).2⟩
      | found again => exact absurd (search.unique again).1 (by simp)
  | found search next induction =>
      cases another with
      | ended again => exact absurd (search.unique again).1 (by simp)
      | found again later =>
          obtain ⟨same, rfl⟩ := search.unique again
          obtain rfl := Option.some.inj same
          obtain ⟨rfl, rfl⟩ := induction later
          exact ⟨rfl, rfl⟩

/-- The work moves cursors among the positions of their documents only. -/
def MovesPositions (work : DocumentId → List (Cursor ω) → List (Cursor ω)) : Prop :=
  ∀ document standing, List.Forall₂ SamePosting standing (work document standing)

/-- A merge ends, and it visits the common documents. Only at the first of them positions may have been
passed before, by cursors that stood on it from the beginning. -/
theorem exists_visits (rounds : Nat) {work : DocumentId → List (Cursor ω) → List (Cursor ω)}
    (moves : MovesPositions work) {places : List (DocumentId × InvertedList)}
    (ascending : ∀ place ∈ places, place.2.Ascending)
    (read : ReadFrom places cursors) {place : DocumentId × InvertedList} (among : place ∈ places)
    (enough : (Reader.since place.1 place.2).postings.length < rounds) :
    ∃ visits, Visits work cursors visits (intersect rounds cursors).2 ∧
      visits.map Prod.fst = (intersect rounds cursors).1.map Prod.fst ∧
      visits.tail = (intersect rounds cursors).1.tail ∧
      (cursors.map rewind = cursors → visits = (intersect rounds cursors).1) := by
  induction rounds generalizing place places cursors with
  | zero => exact absurd enough (Nat.not_lt_zero _)
  | succ rounds induction =>
      have sought := sought_matchAll_id (List.ne_nil_of_mem among) ascending
        (List.forall₂_map_right_iff.mpr read)
      have rewinds : cursors.map rewind = cursors →
          (matchAll id cursors).2.map rewind = (matchAll id cursors).2 := matchAll_id_rewound
      have search := leaps_matchAll (exists_reader? read)
      rw [matchAll_id_map_rewind] at sought
      rw [intersect]
      generalize matchAll id cursors = outcome at sought rewinds search ⊢
      obtain ⟨found, standing⟩ := outcome
      cases found with
      | none => exact ⟨[], .ended search, rfl, rfl, fun _ => rfl⟩
      | some document =>
          have standOn : ∀ cursor ∈ standing, cursor.current? = some document := by
            have stands := List.forall_mem_map.mp (sought.standOn document rfl)
            simpa only [current?_rewind] using stands
          have same := map_advancePast_eq (moves document standing) standOn
          obtain ⟨readAfter, -, fewer⟩ := sought.past ascending
          rw [map_advancePast_map_rewind, List.forall₂_map_right_iff] at readAfter
          have ascendAfter : ∀ place ∈ places.map fun place => (document + 1, place.2),
              place.2.Ascending := List.forall_mem_map.mpr ascending
          have amongAfter : (document + 1, place.2) ∈
              places.map fun place => (document + 1, place.2) :=
            List.mem_map.mpr ⟨place, among, rfl⟩
          obtain ⟨visits, merge, -, -, later⟩ := induction ascendAfter readAfter amongAfter
            (Nat.lt_of_lt_of_le (fewer place among) (Nat.le_of_lt_succ enough))
          -- Past the document the cursors stand on first positions, so all later visits are exact.
          rw [later (map_rewind_advancePast standOn)] at merge
          have next : Visits work ((work document standing).map (advancePast document))
              (intersect rounds (standing.map (advancePast document))).1
              (intersect rounds (standing.map (advancePast document))).2 := by
            rw [same]
            exact merge
          refine ⟨_, .found search next, rfl, rfl, fun start => ?_⟩
          rw [map_unread_of_rewound (rewinds start)]

/-! ## Common documents -/

/-- What cursors find that search their lists for a common document. -/
structure FindsCommon (lists : List InvertedList) (cursors : List (Cursor ω))
    (outcome : Option DocumentId × List (Cursor ω)) : Prop where
  /-- The search ends, and this is how. -/
  ends : ∀ found after, Leaps cursors found after ↔ outcome = (found, after)
  /-- It finds the least common document that no cursor has passed, if there is any. -/
  next : IsNext (commonAhead lists cursors) outcome.1
  /-- All cursors stand on the document that is found. -/
  standOn : ∀ document, outcome.1 = some document →
    ∀ cursor ∈ outcome.2, cursor.current? = some document
  /-- The search only moves the cursors. -/
  reached : List.Forall₂ Reached lists outcome.2

/-- What the merge of cursors comes to. -/
structure Enumerates (lists : List InvertedList) (cursors : List (Cursor ω))
    (common : List (DocumentId × List (List Nat))) : Prop where
  /-- The documents ascend, and each occurs once. -/
  ascending : common.Pairwise fun earlier later => earlier.1 < later.1
  /-- They are the common documents that no cursor has passed, with all positions there. -/
  mem_iff : ∀ document positions, (document, positions) ∈ common ↔
    document ∈ commonAhead lists cursors ∧ positions = InvertedList.rowsAt document lists
  /-- Whatever is done among the positions of a document before the cursors move past it, the merge ends
  and visits these documents, and no position has been passed on arrival. At the first document that
  holds of cursors which start from a first position. -/
  visited : ∀ work, MovesPositions work → ∃ visits final,
    (∀ other last, Visits work cursors other last ↔ other = visits ∧ last = final) ∧
      visits.map Prod.fst = common.map Prod.fst ∧ visits.tail = common.tail ∧
        ((∀ cursor ∈ cursors, cursor.rewind = cursor) → visits = common)

section Places

variable {places : List (DocumentId × InvertedList)}
  (ascending : ∀ place ∈ places, place.2.Ascending)
  (read : ReadFrom places cursors)

include ascending read

theorem findsCommon_matchAll_id (nonempty : places ≠ []) :
    FindsCommon (places.map Prod.snd) cursors (matchAll id cursors) := by
  have search := leaps_matchAll (exists_reader? read)
  have sought := sought_matchAll_id nonempty ascending (List.forall₂_map_right_iff.mpr read)
  rw [matchAll_id_map_rewind] at sought
  refine ⟨fun found after => ⟨fun leaps => ?_, fun same => ?_⟩, ?_,
    fun document found cursor among => ?_, ?_⟩
  · obtain ⟨rfl, rfl⟩ := search.unique leaps
    rfl
  · rwa [same] at search
  · rw [commonAhead_eq ascending read]
    exact sought.next
  · rw [← current?_rewind]
    exact List.forall_mem_map.mp (sought.standOn document found) cursor among
  · obtain ⟨same, each⟩ := List.forall₂_iff_zip.mp (List.forall₂_map_right_iff.mp sought.seek)
    rw [List.forall₂_map_left_iff]
    refine List.forall₂_iff_zip.mpr ⟨same, fun {place _} among => ?_⟩
    obtain ⟨bound, known, -, -⟩ := each among
    exact (reached_iff (ascending place (List.of_mem_zip among).1)).mpr ⟨bound, known⟩

theorem enumerates_intersect (nonempty : places ≠ []) :
    Enumerates (places.map Prod.snd) cursors
      (intersect (remainingEach cursors + 1) cursors).1 := by
  obtain ⟨place, others, rfl⟩ := List.exists_cons_of_ne_nil nonempty
  have enough : (Reader.since place.1 place.2).postings.length < remainingEach cursors + 1 := by
    obtain ⟨leading, following, known, -, rfl⟩ := List.forall₂_cons_left_iff.mp read
    rw [remainingEach, ← remaining_rewind, remaining_of_reader? known]
    omega
  refine ⟨intersect_ascending _ _, fun document positions => ?_, fun work moves => ?_⟩
  · have same : (intersect (remainingEach cursors + 1) (cursors.map rewind)).1 =
        (intersect (remainingEach cursors + 1) cursors).1 := by
      rw [intersect_map_rewind]
      rfl
    rw [← same, mem_intersect_iff _ ascending (List.forall₂_map_right_iff.mpr read)
      List.mem_cons_self enough, commonAhead_eq ascending read, InvertedList.rowsAt, List.map_map]
    rfl
  · obtain ⟨visits, merge, documents, later, start⟩ :=
      exists_visits _ moves ascending read List.mem_cons_self enough
    refine ⟨visits, _, fun other last => ⟨merge.unique, ?_⟩, documents, later, fun rewound => ?_⟩
    · rintro ⟨rfl, rfl⟩
      exact merge
    · exact start ((List.map_congr_left rewound).trans (List.map_id cursors))

end Places

/-- Cursors that have just been opened stand before all common documents, on first positions. -/
theorem commonAhead_opened (ascending : ∀ list ∈ lists, list.Ascending)
    (opened : List.Forall₂ (fun list cursor => cursor.reader? = some (.ofList list)) lists cursors) :
    (commonAhead lists cursors = {document | ∀ list ∈ lists, document ∈ list.documents}) ∧
      ∀ cursor ∈ cursors, cursor.rewind = cursor := by
  have rewound : ∀ list (cursor : Cursor ω), cursor.reader? = some (.ofList list) →
      cursor.rewind = cursor := by
    intro list cursor known
    cases cursor with
    | scoring => rfl
    | term | list =>
        simp only [reader?] at known
        rw [known]
        rfl
  constructor
  · let places := lists.map fun list => ((0 : DocumentId), list)
    have ascends : ∀ place ∈ places, place.2.Ascending := List.forall_mem_map.mpr ascending
    have read : ReadFrom places cursors := by
      refine List.forall₂_map_left_iff.mpr (opened.imp fun list cursor known => ?_)
      rw [rewound list cursor known, known, Reader.since_zero]
    have ahead := commonAhead_eq ascends read
    simp only [places, List.map_map, Function.comp_def, List.map_id'] at ahead
    rw [ahead]
    ext document
    simp [InvertedList.commonBeyond]
  · intro cursor among
    obtain ⟨list, -, known⟩ := exists_of_mem_forall₂ opened.flip among
    exact rewound list cursor known

/-- Wherever the cursors of ascending lists stand, their search for a common document ends on the next
document that all lists have, with all cursors on it, and is the search for a match. Repeated, it
enumerates the common documents in their order; from the beginning of the lists these are all common
documents, and every position is read there. -/
theorem common_documents_found (nonempty : lists ≠ [])
    (ascending : ∀ list ∈ lists, list.Ascending) (reached : List.Forall₂ Reached lists cursors) :
    FindsCommon lists cursors (matchAll id cursors) ∧
      (∀ soft, matchAll (settle soft) cursors = matchAll id cursors ∧
        Agrees soft cursors (matchAll id cursors).1 (matchAll id cursors).2) ∧
      Enumerates lists cursors (intersect (remainingEach cursors + 1) cursors).1 ∧
      (List.Forall₂ (fun list cursor => cursor.reader? = some (.ofList list)) lists cursors →
        (commonAhead lists cursors = {document | ∀ list ∈ lists, document ∈ list.documents}) ∧
          ∀ cursor ∈ cursors, cursor.rewind = cursor) := by
  obtain ⟨places, rfl, read⟩ := exists_places ascending reached
  have ascends := List.forall_mem_map.mp ascending
  have placed : places ≠ [] := fun empty => nonempty (congrArg (List.map Prod.snd) empty)
  have areLists : ∀ cursor ∈ cursors, cursor.isList = true := by
    intro cursor among
    obtain ⟨reader, known⟩ := exists_reader? read cursor among
    exact isList_of_reader? known
  refine ⟨findsCommon_matchAll_id ascends read placed, fun soft => ?_,
    enumerates_intersect ascends read placed, commonAhead_opened ascending⟩
  exact ⟨matchAll_settle soft areLists, (leaps_matchAll (exists_reader? read)).agrees soft areLists⟩

/-- A cursor that has been moved, also among its positions, and one that has not. -/
theorem common_documents_found_catDog :
    let cat := InvertedList.ofPostings .body [.ofPositions 1 [0], .ofPositions 3 [2, 4]]
    let dog := InvertedList.ofPostings .body [.ofPositions 0 [1], .ofPositions 3 [3]]
    let reading (list : InvertedList) : Cursor Nat := .term "word" .body (some (.ofList list))
    let cursors := [((reading cat).advanceTo 2).mapReader (.skipPositions 2), reading dog]
    cat.Ascending ∧ dog.Ascending ∧ (matchAll id cursors).1 = some 3 ∧
      FindsCommon [cat, dog] cursors (matchAll id cursors) ∧
      (3, [[2, 4], [3]]) ∈ (intersect (remainingEach cursors + 1) cursors).1 := by
  intro cat dog reading cursors
  have isCat : cat.Ascending := by simp [cat, InvertedList.Ascending, Posting.ofPositions]
  have isDog : dog.Ascending := by simp [dog, InvertedList.Ascending, Posting.ofPositions]
  have ascending : ∀ list ∈ [cat, dog], list.Ascending := by simp [isCat, isDog]
  have start : Reached cat ((reading cat).advanceTo 2) := .advanceTo 2 (.opened rfl)
  have passed : SamePosting ((reading cat).advanceTo 2)
      (((reading cat).advanceTo 2).mapReader (.skipPositions 2)) :=
    samePosting_mapReader (fun _ => rfl) _
  have reached : List.Forall₂ Reached [cat, dog] cursors :=
    .cons (.amongPositions start passed) (.cons (.opened rfl) .nil)
  obtain ⟨finds, -, -, -⟩ := common_documents_found (List.cons_ne_nil _ _) ascending reached
  exact ⟨isCat, isDog, by decide, finds, by decide⟩

end Retrieval.Cursor
