import Retrieval.Proofs.Scoring.Answers

/-!
# Documents that lists have in common

The operands of a proximity operator read their lists side by side and leap over each other. No leap
goes beyond a document that all lists have, so the documents on which they agree are exactly the common
documents of the lists, and each list shows the positions that it has there.
-/

namespace Retrieval

namespace InvertedList

/-- The positions in a document; none if the list does not have it. -/
def positionsAt (document : DocumentId) (list : InvertedList) : List Nat :=
  (list.postings.find? (·.document == document)).elim [] (·.positions)

/-- The documents that all lists have, in each of them from its bound on. -/
def commonBeyond (places : List (DocumentId × InvertedList)) : Set DocumentId :=
  {document | ∀ place ∈ places, place.1 ≤ document ∧ document ∈ place.2.documents}

/-- Behind the least common document the others follow. -/
theorem mem_commonBeyond_iff {least document : DocumentId} {places : List (DocumentId × InvertedList)}
    (isLeast : IsLeast (commonBeyond places) least) :
    document ∈ commonBeyond places ↔
      document = least ∨ document ∈ commonBeyond (places.map fun place => (least + 1, place.2)) := by
  constructor
  · intro member
    rcases eq_or_lt_of_le (isLeast.2 member) with same | beyond
    · exact .inl same.symm
    · exact .inr (List.forall_mem_map.mpr fun place among => ⟨beyond, (member place among).2⟩)
  · rintro (rfl | member)
    · exact isLeast.1
    · intro place among
      obtain ⟨beyond, present⟩ := List.forall_mem_map.mp member place among
      exact ⟨(isLeast.1 place among).1.trans (Nat.le_of_succ_le beyond), present⟩

end InvertedList

/-! ## Reading side by side -/

namespace Reader

variable {list : InvertedList} {bound other document : DocumentId}

/-- A reader that moves beyond the document on which it stands has fewer postings ahead. -/
theorem length_skip_lt {reader : Reader} (current : reader.current? = some document)
    (beyond : document < other) :
    (reader.skip (· < other)).postings.length < reader.postings.length := by
  obtain ⟨posting, head, rfl⟩ := Option.map_eq_some_iff.mp current
  obtain ⟨later, ahead⟩ := List.head?_eq_some_iff.mp head
  rw [skip, ahead]
  have shorter := List.dropWhile_sublist (l := later) fun posting => posting.document < other
  simpa [beyond, enter] using Nat.lt_succ_of_le shorter.length_le

/-- A bound beyond a document of the list leaves fewer postings ahead. -/
theorem length_since_lt (reached : bound ≤ document) (beyond : document < other)
    (present : document ∈ list.documents) :
    (since other list).postings.length < (since bound list).postings.length := by
  obtain ⟨posting, member, rfl⟩ := InvertedList.mem_documents.mp present
  have fewer : list.postings.filter (fun posting => other ≤ posting.document) =
      (list.postings.filter fun posting => bound ≤ posting.document).filter
        fun posting => other ≤ posting.document := by
    rw [List.filter_filter]
    refine List.filter_congr fun posting _ => ?_
    simpa using fun far => (reached.trans beyond.le).trans far
  simp only [since, enter]
  rw [fewer, List.length_filter_lt_length_iff_exists]
  exact ⟨posting, List.mem_filter.mpr ⟨member, by simpa using reached⟩, by simpa using beyond⟩

end Reader

namespace Cursor

variable {ω : Type} {cursor : Cursor ω} {reader : Reader} {list : InvertedList}
  {start document : DocumentId} {common : Set DocumentId}

theorem reader?_advanceTo (known : cursor.reader? = some reader) (document : DocumentId) :
    (cursor.advanceTo document).reader? = some (reader.skip (· < document)) := by
  cases cursor with
  | scoring => simp [reader?] at known
  | term | list => simpa [advanceTo, reader?] using ⟨reader, known, rfl⟩

theorem reader?_advancePast (known : cursor.reader? = some reader) (document : DocumentId) :
    (cursor.advancePast document).reader? = some (reader.skip (· ≤ document)) := by
  cases cursor with
  | scoring => simp [reader?] at known
  | term | list => simpa [advancePast, reader?] using ⟨reader, known, rfl⟩

theorem current?_of_reader? (known : cursor.reader? = some reader) :
    cursor.current? = reader.current? := by
  cases cursor with
  | scoring => simp [reader?] at known
  | term | list => simp_all [current?, reader?]

theorem isList_of_reader? (known : cursor.reader? = some reader) :
    cursor.isList = true := by
  cases cursor with
  | scoring => simp [reader?] at known
  | term | list => rfl

theorem remaining_of_reader? (known : cursor.reader? = some reader) :
    cursor.remaining = reader.postings.length + 1 := by
  cases cursor with
  | scoring => simp [reader?] at known
  | term | list => simp_all [remaining, reader?]

/-- A leap beyond the document on which a cursor stands takes postings away. -/
theorem remaining_advanceTo_lt (known : cursor.reader? = some reader)
    (current : cursor.current? = some document) {other : DocumentId} (beyond : document < other) :
    (cursor.advanceTo other).remaining < cursor.remaining := by
  rw [current?_of_reader? known] at current
  rw [remaining_of_reader? known, remaining_of_reader? (reader?_advanceTo known other)]
  exact Nat.succ_lt_succ (Reader.length_skip_lt current beyond)

/-- The cursor reads the list from a bound on that lies before none of the common documents. -/
def Seeks (start : DocumentId) (common : Set DocumentId) (list : InvertedList) (cursor : Cursor ω) :
    Prop :=
  ∃ bound, cursor.reader? = some (.since bound list) ∧ start ≤ bound ∧ bound ∈ lowerBounds common

namespace Seeks

variable (ascending : list.Ascending) (seeks : cursor.Seeks start common list)

include ascending seeks

theorem advanceTo (least : document ∈ lowerBounds common) :
    (cursor.advanceTo document).Seeks start common list := by
  obtain ⟨bound, known, reached, below⟩ := seeks
  refine ⟨max bound document, ?_, reached.trans (le_max_left _ _),
    fun found member => max_le (below member) (least member)⟩
  rw [reader?_advanceTo known, Reader.skip_since ascending]

/-- A cursor at its end shows that its list has none of the common documents. -/
theorem notMem_of_current? (ended : cursor.current? = none) {found : DocumentId}
    (member : found ∈ common) : found ∉ list.documents := by
  obtain ⟨bound, known, reached, below⟩ := seeks
  have next := Reader.isNext_since ascending bound
  rw [← current?_of_reader? known, ended] at next
  exact fun present => next.notMem rfl ⟨present, below member⟩

/-- The document on which a cursor stands is one of its list, and no common document of the list lies
before it. -/
theorem of_current? (current : cursor.current? = some document) :
    start ≤ document ∧ document ∈ list.documents ∧
      ∀ found ∈ common, found ∈ list.documents → document ≤ found := by
  obtain ⟨bound, known, reached, below⟩ := seeks
  have next := Reader.isNext_since ascending bound
  rw [← current?_of_reader? known, current] at next
  exact ⟨reached.trans next.1.2, next.1.1, fun found member present =>
    next.2 ⟨present, below member⟩⟩

/-- Past the document on which it stands the cursor reads all that follows. -/
theorem advancePast (current : cursor.current? = some document) :
    (cursor.advancePast document).reader? = some (.since (document + 1) list) := by
  obtain ⟨bound, known, reached, below⟩ := seeks
  have next := Reader.isNext_since ascending bound
  rw [← current?_of_reader? known, current] at next
  have before : bound ≤ document := next.1.2
  rw [reader?_advancePast known, Reader.skip_le_eq, Reader.skip_since ascending,
    max_eq_right (before.trans (Nat.le_succ document))]

/-- A cursor shows the positions of its list in the document on which it stands. -/
theorem positions_eq (current : cursor.current? = some document) :
    cursor.positions = list.positionsAt document := by
  obtain ⟨bound, known, -, -⟩ := seeks
  rw [current?_of_reader? known] at current
  obtain ⟨posting, head, same⟩ := Option.map_eq_some_iff.mp current
  have member : posting ∈ list.postings :=
    (List.filter_sublist).subset (List.mem_of_mem_head? head)
  have present : cursor.posting? = some posting := by simpa [posting?, known] using head
  rw [positions, present, InvertedList.positionsAt, ← same, ascending.find?_eq member]

end Seeks

/-! ## Searches -/

variable {lists : List InvertedList} {first : InvertedList} {leading : Cursor ω}
  {others cursors : List (Cursor ω)} {places : List (DocumentId × InvertedList)}
  {foremost : DocumentId × InvertedList}

/-- One cursor after the other moves to a document that lies before no common one. -/
theorem meet_id_seeks (ascending : ∀ place ∈ places, place.2.Ascending)
    (shared : ∀ found ∈ common, ∀ place ∈ places, found ∈ place.2.documents)
    (seek : List.Forall₂ (fun place => Seeks place.1 common place.2) places cursors)
    (least : document ∈ lowerBounds common) :
    List.Forall₂ (fun place => Seeks place.1 common place.2) places (meet id document cursors).2 ∧
      (meet id document cursors).1.Tells document common (meet id document cursors).2 := by
  induction seek with
  | nil => exact ⟨.nil, by simp [meet, Agreement.Tells]⟩
  | @cons place cursor places cursors head later induction =>
      obtain ⟨ascends, ascendLater⟩ := List.forall_mem_cons.mp ascending
      have moved := head.advanceTo ascends least
      have here : ∀ found ∈ common, found ∈ place.2.documents := fun found member =>
        shared found member place List.mem_cons_self
      obtain ⟨seekLater, tells⟩ := induction ascendLater fun found member other inside =>
        shared found member other (List.mem_cons_of_mem _ inside)
      rw [meet]
      simp only [id_eq]
      cases current : (cursor.advanceTo document).current? with
      | none =>
          refine ⟨.cons moved later, fun found member => ?_⟩
          exact absurd (here found member) (moved.notMem_of_current? ascends current member)
      | some other =>
          obtain ⟨-, -, reached⟩ := moved.of_current? ascends current
          dsimp only
          split
          · next same =>
              subst same
              refine ⟨.cons moved seekLater, ?_⟩
              generalize meet id other cursors = outcome at tells ⊢
              obtain ⟨agreement, met⟩ := outcome
              cases agreement with
              | agreed => exact List.forall_mem_cons.mpr ⟨current, tells⟩
              | exhausted => exact tells
              | ahead next => exact tells
          · next differs =>
              refine ⟨.cons moved later, ?_, fun found member _ => ?_⟩
              · exact lt_of_le_of_ne (le_current?_advanceTo current) (Ne.symm differs)
              · exact reached found member (here found member)

/-- A document on which all cursors stand is common to their lists. -/
theorem mem_commonBeyond_of_current? (ascending : ∀ place ∈ places, place.2.Ascending)
    (seek : List.Forall₂ (fun place => Seeks place.1 common place.2) places cursors)
    (standOn : ∀ cursor ∈ cursors, cursor.current? = some document) :
    document ∈ InvertedList.commonBeyond places := by
  intro place member
  obtain ⟨cursor, among, seeks⟩ := exists_of_mem_forall₂ seek member
  obtain ⟨reached, present, -⟩ :=
    seeks.of_current? (ascending place member) (standOn cursor among)
  exact ⟨reached, present⟩

/-- What the search for a common document comes to: the cursors seek on, and on the next common document
all of them stand. -/
structure Sought (places : List (DocumentId × InvertedList))
    (outcome : Option DocumentId × List (Cursor ω)) : Prop where
  /-- The cursors have not passed any common document. -/
  seek : List.Forall₂ (fun place => Seeks place.1 (InvertedList.commonBeyond places) place.2) places
    outcome.2
  /-- The next common document is found. -/
  next : IsNext (InvertedList.commonBeyond places) outcome.1
  /-- All cursors stand on it. -/
  standOn : ∀ document, outcome.1 = some document →
    ∀ cursor ∈ outcome.2, cursor.current? = some document

/-- The search finds the next common document, and all cursors on it. The first cursor loses postings
in each round, so the rounds suffice. -/
theorem sought_leapfrog_id (rounds : Nat) (ascending : ∀ place ∈ foremost :: places, place.2.Ascending)
    (seek : List.Forall₂
      (fun place => Seeks place.1 (InvertedList.commonBeyond (foremost :: places)) place.2)
      (foremost :: places) (leading :: others))
    (enough : leading.remaining ≤ rounds) :
    Sought (foremost :: places) (leapfrog id rounds leading others) := by
  have shared : ∀ found ∈ InvertedList.commonBeyond (foremost :: places),
      ∀ place ∈ foremost :: places, found ∈ place.2.documents :=
    fun found member place among => (member place among).2
  obtain ⟨ascends, ascendLater⟩ := List.forall_mem_cons.mp ascending
  induction rounds generalizing leading others with
  | zero =>
      obtain ⟨bound, known, -, -⟩ := (List.forall₂_cons.mp seek).1
      rw [remaining_of_reader? known] at enough
      exact absurd enough (Nat.not_succ_le_zero _)
  | succ rounds induction =>
      obtain ⟨head, later⟩ := List.forall₂_cons.mp seek
      rw [leapfrog]
      simp only [id_eq]
      cases current : leading.current? with
      | none =>
          refine ⟨seek, Set.eq_empty_of_forall_notMem fun found member => ?_, by simp⟩
          exact head.notMem_of_current? ascends current member
            (shared found member foremost List.mem_cons_self)
      | some document =>
          obtain ⟨-, present, reached⟩ := head.of_current? ascends current
          have least : document ∈ lowerBounds (InvertedList.commonBeyond (foremost :: places)) :=
            fun found member => reached found member (shared found member foremost List.mem_cons_self)
          obtain ⟨seekLater, tells⟩ := meet_id_seeks ascendLater
            (fun found member => (List.forall_mem_cons.mp (shared found member)).2) later least
          dsimp only
          generalize meet id document others = outcome at seekLater tells ⊢
          obtain ⟨agreement, met⟩ := outcome
          cases agreement with
          | agreed =>
              have standOn : ∀ cursor ∈ leading :: met, cursor.current? = some document :=
                List.forall_mem_cons.mpr ⟨current, tells⟩
              refine ⟨.cons head seekLater, ⟨?_, least⟩, fun found same => ?_⟩
              · exact mem_commonBeyond_of_current? ascending (.cons head seekLater) standOn
              · exact Option.some.inj same ▸ standOn
          | exhausted =>
              refine ⟨.cons head seekLater, Set.eq_empty_of_forall_notMem fun found member => ?_,
                by simp⟩
              exact absurd (tells found member) (Nat.not_lt_of_le (least member))
          | ahead other =>
              obtain ⟨beyond, next⟩ := tells
              have leap := head.advanceTo ascends fun found member => next found member (least member)
              obtain ⟨bound, known, -, -⟩ := head
              have fewer := remaining_advanceTo_lt known current beyond
              exact induction (.cons leap seekLater)
                (Nat.le_of_lt_succ (Nat.lt_of_lt_of_le fewer enough))

/-- Cursors that read their lists from any bounds find the next document that all lists have from these
bounds on. -/
theorem sought_matchAll_id (nonempty : places ≠ []) (ascending : ∀ place ∈ places, place.2.Ascending)
    (read : List.Forall₂ (fun place cursor => cursor.reader? = some (.since place.1 place.2)) places
      cursors) : Sought places (matchAll id cursors) := by
  have seek : List.Forall₂ (fun place => Seeks place.1 (InvertedList.commonBeyond places) place.2)
      places cursors := by
    obtain ⟨same, each⟩ := List.forall₂_iff_zip.mp read
    refine List.forall₂_iff_zip.mpr ⟨same, fun {place _} among => ?_⟩
    have member : place ∈ places := (List.of_mem_zip among).1
    exact ⟨place.1, each among, le_rfl, fun found common => (common place member).1⟩
  obtain ⟨foremost, others, rfl⟩ := List.exists_cons_of_ne_nil nonempty
  obtain ⟨leading, following, -, -, rfl⟩ := List.forall₂_cons_left_iff.mp seek
  exact sought_leapfrog_id _ ascending seek (Nat.le_succ _)

/-! ## All common documents -/

/-- Cursors that agree on a document show the positions of their lists there, and past it they read
all that follows. -/
theorem seeks_agreed (ascending : ∀ place ∈ places, place.2.Ascending)
    (seek : List.Forall₂ (fun place => Seeks place.1 common place.2) places cursors)
    (standOn : ∀ cursor ∈ cursors, cursor.current? = some document) :
    List.Forall₂ (fun place cursor => cursor.reader? = some (.since place.1 place.2))
        (places.map fun place => (document + 1, place.2)) (cursors.map (advancePast document)) ∧
      cursors.map positions = places.map fun place => place.2.positionsAt document := by
  induction seek with
  | nil => exact ⟨.nil, rfl⟩
  | cons head _ induction =>
      obtain ⟨ascends, ascendLater⟩ := List.forall_mem_cons.mp ascending
      obtain ⟨current, standLater⟩ := List.forall_mem_cons.mp standOn
      obtain ⟨readLater, shownLater⟩ := induction ascendLater standLater
      refine ⟨.cons (head.advancePast ascends current) readLater, ?_⟩
      rw [List.map_cons, List.map_cons, head.positions_eq ascends current, shownLater]

/-- Past the document that has been found all cursors read on from one bound, and less is ahead of each
of them. -/
theorem Sought.past (ascending : ∀ place ∈ places, place.2.Ascending)
    (sought : Sought places (some document, cursors)) :
    List.Forall₂ (fun place cursor => cursor.reader? = some (.since place.1 place.2))
        (places.map fun place => (document + 1, place.2)) (cursors.map (advancePast document)) ∧
      (cursors.map positions = places.map fun place => place.2.positionsAt document) ∧
      ∀ place ∈ places, (Reader.since (document + 1) place.2).postings.length <
        (Reader.since place.1 place.2).postings.length := by
  obtain ⟨readAfter, shown⟩ := seeks_agreed ascending sought.seek (sought.standOn document rfl)
  refine ⟨readAfter, shown, fun place among => ?_⟩
  obtain ⟨reached, present⟩ := sought.next.1 place among
  exact Reader.length_since_lt reached (Nat.lt_add_one document) present

/-- Cursors that read their lists from some bounds find exactly the common documents from there on, and
the positions that the lists have in them. Every round takes a posting from each list, so the rounds
suffice if they do for one of the lists. -/
theorem mem_intersect_iff (rounds : Nat) (ascending : ∀ place ∈ places, place.2.Ascending)
    (read : List.Forall₂ (fun place cursor => cursor.reader? = some (.since place.1 place.2)) places
      cursors) {place : DocumentId × InvertedList} (among : place ∈ places)
    (enough : (Reader.since place.1 place.2).postings.length < rounds)
    {positions : List (List Nat)} :
    (document, positions) ∈ (intersect rounds cursors).1 ↔
      document ∈ InvertedList.commonBeyond places ∧
        positions = places.map fun place => place.2.positionsAt document := by
  induction rounds generalizing place places cursors with
  | zero => exact absurd enough (Nat.not_lt_zero _)
  | succ rounds induction =>
      have sought := sought_matchAll_id (List.ne_nil_of_mem among) ascending read
      rw [intersect]
      generalize matchAll id cursors = outcome at sought ⊢
      obtain ⟨found, after⟩ := outcome
      cases found with
      | none =>
          have empty : InvertedList.commonBeyond places = ∅ := sought.next
          simp [empty]
      | some least =>
          obtain ⟨readAfter, shown, fewer⟩ := sought.past ascending
          have ascendAfter : ∀ place ∈ places.map fun place => (least + 1, place.2),
              place.2.Ascending := List.forall_mem_map.mpr ascending
          have amongAfter : (least + 1, place.2) ∈ places.map fun place => (least + 1, place.2) :=
            List.mem_map.mpr ⟨place, among, rfl⟩
          have later := induction ascendAfter readAfter amongAfter
            (Nat.lt_of_lt_of_le (fewer place among) (Nat.le_of_lt_succ enough))
          rw [List.mem_cons, later, InvertedList.mem_commonBeyond_iff sought.next, Prod.mk.injEq, shown]
          simp only [List.map_map, Function.comp_def]
          constructor
          · rintro (⟨rfl, rfl⟩ | ⟨member, rfl⟩)
            · exact ⟨.inl rfl, rfl⟩
            · exact ⟨.inr member, rfl⟩
          · rintro ⟨rfl | member, rfl⟩
            · exact .inl ⟨rfl, rfl⟩
            · exact .inr ⟨member, rfl⟩

/-- A proximity operator writes exactly the common documents in which it finds positions. -/
theorem mem_proximity_iff (combine : List (List Nat) → List Nat)
    (ascending : ∀ list ∈ first :: lists, list.Ascending)
    (read : List.Forall₂ (fun list cursor => cursor.reader? = some (.ofList list)) (first :: lists)
      cursors) {posting : Posting} :
    posting ∈ (proximity combine cursors).1 ↔
      ∃ document, (∀ list ∈ first :: lists, document ∈ list.documents) ∧
        combine ((first :: lists).map (InvertedList.positionsAt document)) ≠ [] ∧
          posting = .ofPositions document
            (combine ((first :: lists).map (InvertedList.positionsAt document))) := by
  let places := (first :: lists).map fun list => ((0 : DocumentId), list)
  have ascends : ∀ place ∈ places, place.2.Ascending := List.forall_mem_map.mpr ascending
  have fromStart : List.Forall₂ (fun place cursor => cursor.reader? = some (.since place.1 place.2))
      places cursors := by
    simpa only [places, List.forall₂_map_left_iff, Reader.since_zero] using read
  have enough : (Reader.since 0 first).postings.length < remainingEach cursors + 1 := by
    obtain ⟨leading, others, known, -, rfl⟩ := List.forall₂_cons_left_iff.mp fromStart
    rw [remainingEach, remaining_of_reader? known]
    dsimp only
    omega
  have common : ∀ document positions, (document, positions) ∈
      (intersect (remainingEach cursors + 1) cursors).1 ↔
        (∀ list ∈ first :: lists, document ∈ list.documents) ∧
          positions = (first :: lists).map (InvertedList.positionsAt document) := by
    intro document positions
    rw [mem_intersect_iff _ ascends fromStart List.mem_cons_self enough]
    simp [places, InvertedList.commonBeyond, Function.comp_def]
  rw [proximity]
  simp only [List.mem_filterMap, Prod.exists, common]
  constructor
  · rintro ⟨document, positions, ⟨shared, rfl⟩, written⟩
    split at written
    · simp at written
    · next nonempty => exact ⟨document, shared, nonempty, (Option.some.inj written).symm⟩
  · rintro ⟨document, shared, nonempty, rfl⟩
    refine ⟨document, _, ⟨shared, rfl⟩, ?_⟩
    split
    · next empty => exact absurd empty nonempty
    · rfl

end Cursor

end Retrieval
