import Mathlib.Algebra.BigOperators.Group.Finset.Basic
import Mathlib.Algebra.Order.BigOperators.Group.List
import Mathlib.Algebra.Order.Group.Nat
import Retrieval.Proofs.Posting.Positions
import Retrieval.Proofs.Posting.WellFormed

/-!
# Unions of lists

A synonym reads the lists of its operands side by side and writes their least document, over and over.
What it writes is the union of the lists: a posting for each document that some list has, with the
positions of all lists there in ascending order, each as often as the lists have it. So neither the
order of the operands nor the way in which synonyms are nested matters.
-/

namespace Retrieval

namespace InvertedList

variable {list : InvertedList} {lists : List InvertedList} {start document : DocumentId}
  {documentCount : Nat}

theorem WellFormed.counts (wellFormed : list.WellFormed documentCount) :
    ∀ posting ∈ list.postings, posting.frequency = posting.positions.length :=
  fun posting member => (wellFormed.posted posting member).counts

theorem WellFormed.card_documents (wellFormed : list.WellFormed documentCount) :
    list.documents.card = list.documentFrequency := by
  have distinct : (list.postings.map (·.document)).Nodup :=
    List.pairwise_map.mpr (wellFormed.ascending.imp Nat.ne_of_lt)
  rw [documents, List.toFinset_card_of_nodup distinct, List.length_map,
    wellFormed.documentFrequency_eq]

/-- The occurrences of a list, counted over any documents that cover it. -/
theorem WellFormed.collectionFrequency_eq_sum (wellFormed : list.WellFormed documentCount)
    {covering : Finset DocumentId} (covers : list.documents ⊆ covering) :
    list.collectionFrequency = ∑ document ∈ covering, list.frequencyAt document := by
  have distinct : (list.postings.map (·.document)).Nodup :=
    List.pairwise_map.mpr (wellFormed.ascending.imp Nat.ne_of_lt)
  have frequency_eq : ∀ posting ∈ list.postings,
      posting.frequency = list.frequencyAt posting.document := fun posting member => by
    rw [frequencyAt, wellFormed.ascending.find?_eq member, Option.elim_some]
  calc
    list.collectionFrequency = (list.postings.map (·.frequency)).sum :=
      wellFormed.collectionFrequency_eq
    _ = ((list.postings.map (·.document)).map fun document => list.frequencyAt document).sum := by
      rw [List.map_map]
      exact congrArg List.sum (List.map_congr_left frequency_eq)
    _ = ∑ document ∈ list.documents, list.frequencyAt document :=
      (List.sum_toFinset _ distinct).symm
    _ = ∑ document ∈ covering, list.frequencyAt document := by
      refine Finset.sum_subset covers fun document _ absent => ?_
      rw [frequencyAt_eq wellFormed.counts, positionsAt_eq_nil absent, List.length_nil]

/-- The occurrences of several lists, counted document by document. -/
theorem sum_collectionFrequency_eq (wellFormed : ∀ list ∈ lists, list.WellFormed documentCount)
    {covering : Finset DocumentId} (covers : ∀ list ∈ lists, list.documents ⊆ covering) :
    (lists.map (·.collectionFrequency)).sum =
      ∑ document ∈ covering, (lists.map (frequencyAt document)).sum := by
  induction lists with
  | nil => simp
  | cons list lists induction =>
      obtain ⟨head, later⟩ := List.forall_mem_cons.mp wellFormed
      obtain ⟨covered, coverLater⟩ := List.forall_mem_cons.mp covers
      simp only [List.map_cons, List.sum_cons, Finset.sum_add_distrib]
      rw [head.collectionFrequency_eq_sum covered, induction later coverLater]

/-- The documents from the given one on that some list has. -/
def unitedFrom (start : DocumentId) (lists : List InvertedList) : Set DocumentId :=
  {document | start ≤ document ∧ ∃ list ∈ lists, document ∈ list.documents}

/-- Behind the least document of all lists the others follow. -/
theorem mem_unitedFrom_iff {least : DocumentId} (isLeast : IsLeast (unitedFrom start lists) least) :
    document ∈ unitedFrom start lists ↔
      document = least ∨ document ∈ unitedFrom (least + 1) lists := by
  constructor
  · intro member
    rcases eq_or_lt_of_le (isLeast.2 member) with same | beyond
    · exact .inl same.symm
    · exact .inr ⟨beyond, member.2⟩
  · rintro (rfl | member)
    · exact isLeast.1
    · exact ⟨isLeast.1.1.trans (Nat.le_of_succ_le member.1), member.2⟩

/-- The positions of all lists in a document, in ascending order. -/
def unitedPositions (document : DocumentId) (lists : List InvertedList) : List Nat :=
  (lists.flatMap (positionsAt document)).mergeSort (· ≤ ·)

theorem unitedPositions_perm (document : DocumentId) (lists : List InvertedList) :
    (unitedPositions document lists).Perm (lists.flatMap (positionsAt document)) :=
  List.mergeSort_perm _ _

theorem unitedPositions_pairwise (document : DocumentId) (lists : List InvertedList) :
    (unitedPositions document lists).Pairwise (· ≤ ·) :=
  List.pairwise_mergeSort' (· ≤ ·) _

theorem unitedPositions_congr {others : List InvertedList}
    (same : (lists.flatMap (positionsAt document)).Perm (others.flatMap (positionsAt document))) :
    unitedPositions document lists = unitedPositions document others :=
  ((unitedPositions_perm document lists).trans
    (same.trans (unitedPositions_perm document others).symm)).eq_of_pairwise'
      (unitedPositions_pairwise document lists) (unitedPositions_pairwise document others)

theorem length_unitedPositions (wellFormed : ∀ list ∈ lists, list.WellFormed documentCount)
    (document : DocumentId) :
    (unitedPositions document lists).length = (lists.map (frequencyAt document)).sum := by
  rw [(unitedPositions_perm document lists).length_eq, List.length_flatMap]
  refine congrArg List.sum (List.map_congr_left fun list member => ?_)
  exact (frequencyAt_eq (wellFormed list member).counts document).symm

theorem unitedPositions_eq_nil (absent : ∀ list ∈ lists, document ∉ list.documents) :
    unitedPositions document lists = [] := by
  have nothing : lists.flatMap (positionsAt document) = [] :=
    List.flatMap_eq_nil_iff.mpr fun list member => positionsAt_eq_nil (absent list member)
  rw [unitedPositions, nothing, List.mergeSort_nil]

end InvertedList

namespace Cursor

variable {ω : Type} {cursor : Cursor ω} {cursors : List (Cursor ω)} {list : InvertedList}
  {lists : List InvertedList} {start document : DocumentId}

/-! ## One round -/

theorem isNext_of_since (ascending : list.Ascending)
    (read : cursor.reader? = some (.since start list)) :
    IsNext (documentsFrom list.documents start) cursor.current? :=
  current?_of_reader? read ▸ Reader.isNext_since ascending start

/-- The least document on which a cursor stands is the next one of all lists. -/
theorem isNext_earliest_since (ascending : ∀ list ∈ lists, list.Ascending)
    (read : List.Forall₂ (fun list cursor => cursor.reader? = some (.since start list)) lists
      cursors) :
    IsNext (InvertedList.unitedFrom start lists) (earliest cursors) := by
  cases found : earliest cursors with
  | none =>
      refine Set.eq_empty_of_forall_notMem fun document united => ?_
      obtain ⟨reached, list, member, present⟩ := united
      obtain ⟨cursor, among, known⟩ := exists_of_mem_forall₂ read member
      obtain ⟨least, current, -⟩ :=
        (isNext_of_since (ascending list member) known).exists_of_mem ⟨present, reached⟩
      rw [earliest, List.min?_eq_none_iff, List.filterMap_eq_nil_iff] at found
      simp [found cursor among] at current
  | some least =>
      obtain ⟨⟨cursor, among, current⟩, below⟩ := earliest_eq_some_iff.mp found
      constructor
      · obtain ⟨list, member, known⟩ := exists_of_mem_forall₂ read.flip among
        obtain ⟨present, reached⟩ := (isNext_of_since (ascending list member) known).mem current
        exact ⟨reached, list, member, present⟩
      · rintro document ⟨reached, list, member, present⟩
        obtain ⟨other, otherAmong, known⟩ := exists_of_mem_forall₂ read member
        obtain ⟨next, standing, before⟩ :=
          (isNext_of_since (ascending list member) known).exists_of_mem ⟨present, reached⟩
        exact (below other otherAmong next standing).trans before

/-- Past the least document every cursor reads what follows, and those that stood on it have shown the
positions of all lists there. -/
theorem since_of_least (ascending : ∀ list ∈ lists, list.Ascending)
    (read : List.Forall₂ (fun list cursor => cursor.reader? = some (.since start list)) lists cursors)
    (reached : start ≤ document)
    (least : ∀ list ∈ lists, ∀ found ∈ documentsFrom list.documents start, document ≤ found) :
    List.Forall₂ (fun list cursor => cursor.reader? = some (.since (document + 1) list)) lists
        (cursors.map fun cursor =>
          if cursor.current? == some document then cursor.advancePast document else cursor) ∧
      (cursors.filter fun cursor => cursor.current? == some document).flatMap positions =
        lists.flatMap (InvertedList.positionsAt document) := by
  induction read with
  | nil => exact ⟨.nil, rfl⟩
  | @cons list cursor lists cursors known _ induction =>
      obtain ⟨ascends, ascendLater⟩ := List.forall_mem_cons.mp ascending
      obtain ⟨below, belowLater⟩ := List.forall_mem_cons.mp least
      obtain ⟨readLater, shownLater⟩ := induction ascendLater belowLater
      have next := isNext_of_since ascends known
      rw [List.map_cons, List.filter_cons, List.flatMap_cons]
      by_cases current : cursor.current? = some document
      · have seeks : cursor.Seeks start ∅ list := ⟨start, known, le_rfl, by simp⟩
        simp only [current, beq_self_eq_true, if_true, List.flatMap_cons, shownLater,
          seeks.positions_eq ascends current, and_true]
        exact .cons (seeks.advancePast ascends current) readLater
      · have absent : document ∉ list.documents := fun present => by
          obtain ⟨found, standing, before⟩ := next.exists_of_mem ⟨present, reached⟩
          have same := Nat.le_antisymm before (below found (next.mem standing))
          exact current (same ▸ standing)
        have beyond : Reader.since start list = .since (document + 1) list := by
          refine Reader.since_congr fun found present =>
            ⟨fun after => ?_, fun after => reached.trans (Nat.le_of_succ_le after)⟩
          have differs : found ≠ document := fun same => absent (same ▸ present)
          exact lt_of_le_of_ne (below found ⟨present, after⟩) differs.symm
        have stays : (cursor.current? == some document) = false := by simpa using current
        simp only [stays, Bool.false_eq_true, if_false, shownLater,
          InvertedList.positionsAt_eq_nil absent, List.nil_append, and_true]
        exact .cons (beyond ▸ known) readLater

/-! ## All rounds -/

/-- A document of some list takes a posting away when it is passed. -/
theorem sum_length_since_lt (reached : start ≤ document)
    (present : ∃ list ∈ lists, document ∈ list.documents) :
    (lists.map fun list => (Reader.since (document + 1) list).postings.length).sum <
      (lists.map fun list => (Reader.since start list).postings.length).sum := by
  refine List.sum_lt_sum _ _ (fun list _ => ?_) ?_
  · refine (List.monotone_filter_right _ fun posting after => ?_).length_le
    have after : document + 1 ≤ posting.document := by simpa using after
    simpa using reached.trans (Nat.le_of_succ_le after)
  · obtain ⟨list, member, among⟩ := present
    exact ⟨list, member, Reader.length_since_lt reached (Nat.lt_add_one document) among⟩

/-- Cursors that read their lists from one bound write exactly the documents that some list has from
there on, each with the positions of all lists. -/
theorem mem_unite_iff (rounds : Nat) (ascending : ∀ list ∈ lists, list.Ascending)
    (read : List.Forall₂ (fun list cursor => cursor.reader? = some (.since start list)) lists cursors)
    (enough : (lists.map fun list => (Reader.since start list).postings.length).sum < rounds)
    {posting : Posting} :
    posting ∈ (unite rounds cursors).1 ↔
      posting.document ∈ InvertedList.unitedFrom start lists ∧
        posting = .ofPositions posting.document
          (InvertedList.unitedPositions posting.document lists) := by
  induction rounds generalizing start cursors with
  | zero => exact absurd enough (Nat.not_lt_zero _)
  | succ rounds induction =>
      have next := isNext_earliest_since ascending read
      rw [unite]
      generalize earliest cursors = found at next ⊢
      cases found with
      | none =>
          have empty : InvertedList.unitedFrom start lists = ∅ := next
          simp [empty]
      | some least =>
          obtain ⟨readAfter, shown⟩ := since_of_least ascending read next.1.1
            fun list member found inside => next.2 ⟨inside.2, list, member, inside.1⟩
          have fewer := sum_length_since_lt next.1.1 next.1.2
          have later := induction readAfter (by omega)
          dsimp only
          rw [List.mem_cons, later, InvertedList.mem_unitedFrom_iff next, shown,
            ← InvertedList.unitedPositions]
          constructor
          · rintro (rfl | ⟨member, written⟩)
            · exact ⟨.inl rfl, rfl⟩
            · exact ⟨.inr member, written⟩
          · rintro ⟨same | member, written⟩
            · exact .inl (same ▸ written)
            · exact .inr ⟨member, written⟩

/-! ## The list of a synonym -/

/-- The postings of a synonym. -/
theorem mem_postings_materialize_syn_iff (field : Field) (ascending : ∀ list ∈ lists, list.Ascending)
    (read : List.Forall₂ (fun list cursor => cursor.reader? = some (.ofList list)) lists cursors)
    (posting : Posting) :
    posting ∈ (materialize field .syn cursors).1.postings ↔
      (∃ list ∈ lists, posting.document ∈ list.documents) ∧
        posting = .ofPositions posting.document
          (InvertedList.unitedPositions posting.document lists) := by
  have fromStart : List.Forall₂ (fun list cursor => cursor.reader? = some (.since 0 list)) lists
      cursors := by
    simpa only [Reader.since_zero] using read
  have enough : (lists.map fun list => (Reader.since 0 list).postings.length).sum <
      remainingEach cursors + 1 := by
    refine Nat.lt_succ_of_le ?_
    clear read ascending
    induction fromStart with
    | nil => simp [remainingEach]
    | cons known _ induction =>
        rw [List.map_cons, List.sum_cons, remainingEach, remaining_of_reader? known]
        omega
  rw [materialize, InvertedList.ofPostings_postings, mem_unite_iff _ ascending fromStart enough,
    InvertedList.unitedFrom]
  simp

variable {others : List InvertedList} {moved : List (Cursor ω)} {documentCount : Nat}

theorem materialize_syn_ascending (field : Field) (cursors : List (Cursor ω)) :
    (materialize field .syn cursors).1.Ascending := by
  rw [materialize]
  simpa [InvertedList.Ascending] using unite_ascending _ _

theorem mem_documents_materialize_syn_iff (field : Field)
    (ascending : ∀ list ∈ lists, list.Ascending)
    (read : List.Forall₂ (fun list cursor => cursor.reader? = some (.ofList list)) lists cursors)
    (document : DocumentId) :
    document ∈ (materialize field .syn cursors).1.documents ↔
      ∃ list ∈ lists, document ∈ list.documents := by
  rw [InvertedList.mem_documents]
  simp only [mem_postings_materialize_syn_iff field ascending read]
  constructor
  · rintro ⟨posting, ⟨present, -⟩, rfl⟩
    exact present
  · exact fun present => ⟨.ofPositions document
      (InvertedList.unitedPositions document lists), ⟨present, rfl⟩, rfl⟩

theorem positionsAt_materialize_syn (field : Field) (ascending : ∀ list ∈ lists, list.Ascending)
    (read : List.Forall₂ (fun list cursor => cursor.reader? = some (.ofList list)) lists cursors)
    (document : DocumentId) :
    (materialize field .syn cursors).1.positionsAt document =
      InvertedList.unitedPositions document lists := by
  have documents := mem_documents_materialize_syn_iff field ascending read document
  by_cases present : ∃ list ∈ lists, document ∈ list.documents
  · have written := (mem_postings_materialize_syn_iff field ascending read
      (.ofPositions document (InvertedList.unitedPositions document lists))).mpr ⟨present, rfl⟩
    exact (materialize_syn_ascending field cursors).positionsAt_eq written
  · rw [InvertedList.positionsAt_eq_nil fun member => present (documents.mp member),
      InvertedList.unitedPositions_eq_nil fun list member among => present ⟨list, member, among⟩]

/-- Two synonyms whose operands have the same documents and positions write the same postings. -/
theorem materialize_syn_congr (field other : Field) (ascending : ∀ list ∈ lists, list.Ascending)
    (otherAscending : ∀ list ∈ others, list.Ascending)
    (read : List.Forall₂ (fun list cursor => cursor.reader? = some (.ofList list)) lists cursors)
    (otherRead : List.Forall₂ (fun list cursor => cursor.reader? = some (.ofList list)) others moved)
    (documents : ∀ document, (∃ list ∈ lists, document ∈ list.documents) ↔
      ∃ list ∈ others, document ∈ list.documents)
    (positions : ∀ document, (lists.flatMap (InvertedList.positionsAt document)).Perm
      (others.flatMap (InvertedList.positionsAt document))) :
    (materialize field .syn cursors).1.postings = (materialize other .syn moved).1.postings := by
  refine (materialize_syn_ascending field cursors).postings_eq
    (materialize_syn_ascending other moved) fun posting => ?_
  rw [mem_postings_materialize_syn_iff field ascending read,
    mem_postings_materialize_syn_iff other otherAscending otherRead, documents,
    InvertedList.unitedPositions_congr (positions _)]

/-- The order of the operands does not matter. -/
theorem materialize_syn_perm (field other : Field) (ascending : ∀ list ∈ lists, list.Ascending)
    (read : List.Forall₂ (fun list cursor => cursor.reader? = some (.ofList list)) lists cursors)
    (permuted : moved.Perm cursors) :
    (materialize other .syn moved).1.postings = (materialize field .syn cursors).1.postings := by
  obtain ⟨others, otherRead, same⟩ := List.perm_comp_forall₂ permuted read.flip
  refine materialize_syn_congr other field
    (fun list member => ascending list (same.mem_iff.mp member)) ascending otherRead.flip read
    (fun document => ?_) fun document => same.flatMap_right _
  simp only [same.mem_iff]

/-- A synonym among the operands may be replaced by its own operands. -/
theorem materialize_syn_nested (field outer inside : Field)
    (ascending : ∀ list ∈ lists, list.Ascending) {before inner after : List (Cursor ω)}
    (read : List.Forall₂ (fun list cursor => cursor.reader? = some (.ofList list)) lists
      (before ++ inner ++ after))
    {nested : Cursor ω} (reads : nested.reader? = some (.ofList (materialize inside .syn inner).1)) :
    (materialize outer .syn (before ++ nested :: after)).1.postings =
      (materialize field .syn (before ++ inner ++ after)).1.postings := by
  obtain ⟨front, back, rfl, readFront, readBack⟩ := exists_of_forall₂_append read
  obtain ⟨leading, middle, rfl, readLeading, readMiddle⟩ := exists_of_forall₂_append readFront
  have ascendMiddle : ∀ list ∈ middle, list.Ascending := fun list member =>
    ascending list (by simp [member])
  have ascendNested : ∀ list ∈ leading ++ (materialize inside .syn inner).1 :: back,
      list.Ascending := by
    intro list member
    rcases List.mem_append.mp member with among | among
    · exact ascending list (by simp [among])
    · rcases List.mem_cons.mp among with rfl | among
      · exact materialize_syn_ascending inside inner
      · exact ascending list (by simp [among])
  refine materialize_syn_congr outer field ascendNested ascending
    (List.rel_append readLeading (.cons reads readBack)) read (fun document => ?_) fun document => ?_
  · have united := mem_documents_materialize_syn_iff inside ascendMiddle readMiddle document
    simp only [List.mem_append, List.mem_cons, or_and_right, exists_or, exists_eq_left, united,
      or_assoc]
  · simp only [List.flatMap_append, List.flatMap_cons, List.append_assoc,
      positionsAt_materialize_syn inside ascendMiddle readMiddle]
    exact ((InvertedList.unitedPositions_perm document middle).append_right _).append_left _

theorem materialize_wellFormed_of_read (field : Field) (operator : ListOperator)
    (wellFormed : ∀ list ∈ lists, list.WellFormed documentCount)
    (read : List.Forall₂ (fun list cursor => cursor.reader? = some (.ofList list)) lists cursors) :
    (materialize field operator cursors).1.WellFormed documentCount := by
  refine materialize_wellFormed field operator (fun cursor among => ?_) fun cursor among list known => ?_
  all_goals obtain ⟨list, member, reads⟩ := exists_of_mem_forall₂ read.flip among
  · exact reads_ofList (wellFormed list member) (isList_of_reader? reads) reads
  · rw [invertedList?, reads] at known
    exact Option.some.inj known ▸ wellFormed list member

/-- What a synonym of well-formed lists writes is their union. -/
theorem materialize_syn_union (field : Field)
    (wellFormed : ∀ list ∈ lists, list.WellFormed documentCount)
    (read : List.Forall₂ (fun list cursor => cursor.reader? = some (.ofList list)) lists cursors) :
    let union := (materialize field .syn cursors).1
    union.Ascending ∧
      (∀ document, document ∈ union.documents ↔ ∃ list ∈ lists, document ∈ list.documents) ∧
      (∀ posting ∈ union.postings,
        posting.positions.Pairwise (· ≤ ·) ∧
          posting.positions.Perm (lists.flatMap (InvertedList.positionsAt posting.document)) ∧
          posting.frequency = (lists.map (InvertedList.frequencyAt posting.document)).sum) ∧
      union.documentFrequency = (lists.toFinset.biUnion InvertedList.documents).card ∧
      union.collectionFrequency = (lists.map (·.collectionFrequency)).sum ∧
      (∀ (other : Field) (permuted : List (Cursor ω)), permuted.Perm cursors →
        (materialize other .syn permuted).1.postings = union.postings) ∧
      ∀ (outer inside : Field) (before inner after : List (Cursor ω)) (nested : Cursor ω),
        before ++ inner ++ after = cursors →
          nested.reader? = some (.ofList (materialize inside .syn inner).1) →
            (materialize outer .syn (before ++ nested :: after)).1.postings = union.postings := by
  intro union
  have ascending : ∀ list ∈ lists, list.Ascending := fun list member =>
    (wellFormed list member).ascending
  have united : union.WellFormed documentCount := materialize_wellFormed_of_read field .syn wellFormed read
  have documents := mem_documents_materialize_syn_iff field ascending read
  have positions_eq := positionsAt_materialize_syn field ascending read
  have frequency_eq (document : DocumentId) :
      union.frequencyAt document = (lists.map (InvertedList.frequencyAt document)).sum := by
    rw [InvertedList.frequencyAt_eq united.counts, positions_eq,
      InvertedList.length_unitedPositions wellFormed]
  have covering : union.documents = lists.toFinset.biUnion InvertedList.documents := by
    ext document
    rw [documents]
    simp
  refine ⟨united.ascending, documents, fun posting member => ?_, ?_, ?_, ?_, ?_⟩
  · have written : posting.positions = InvertedList.unitedPositions posting.document lists := by
      rw [← united.ascending.positionsAt_eq member, positions_eq]
    refine ⟨written ▸ InvertedList.unitedPositions_pairwise _ _,
      written ▸ InvertedList.unitedPositions_perm _ _, ?_⟩
    rw [(united.posted posting member).counts, written,
      InvertedList.length_unitedPositions wellFormed]
  · rw [← covering, united.card_documents]
  · have covers : ∀ list ∈ lists, list.documents ⊆ union.documents := fun list member document among =>
      (documents document).mpr ⟨list, member, among⟩
    rw [InvertedList.sum_collectionFrequency_eq wellFormed covers,
      united.collectionFrequency_eq_sum (Finset.Subset.refl _)]
    exact Finset.sum_congr rfl fun document _ => frequency_eq document
  · exact fun other permuted same => materialize_syn_perm field other ascending read same
  · rintro outer inside before inner after nested rfl reads
    exact materialize_syn_nested field outer inside ascending read reads

/-- An operand that occurs twice counts twice, and a synonym of the first two operands may stand for
them. -/
theorem materialize_syn_union_repeated :
    let cat := InvertedList.ofPostings .body [.ofPositions 0 [1], .ofPositions 2 [0, 3]]
    let dog := InvertedList.ofPostings .body [.ofPositions 2 [1]]
    let reading (list : InvertedList) : Cursor Nat := .term "word" .body (some (.ofList list))
    let union := (materialize .body .syn [reading cat, reading dog, reading cat]).1
    let nested := reading (materialize .body .syn [reading cat, reading dog]).1
    union.documentFrequency = 2 ∧ union.collectionFrequency = 7 ∧
      (materialize .body .syn [nested, reading cat]).1.postings = union.postings := by
  intro cat dog reading union nested
  have wellFormed : ∀ list ∈ [cat, dog, cat], list.WellFormed 3 := by
    have single (document : DocumentId) (bounded : document < 3) (positions : List Nat)
        (occurs : positions ≠ []) : (Posting.ofPositions document positions).IsPosted 3 :=
      Posting.ofPositions_isPosted bounded occurs
    have isCat : cat.WellFormed 3 :=
      InvertedList.ofPostings_wellFormed .body (by simp [Posting.ofPositions]) (by simp [single])
    have isDog : dog.WellFormed 3 :=
      InvertedList.ofPostings_wellFormed .body (by simp) (by simp [single])
    simp [isCat, isDog]
  have read : List.Forall₂ (fun list cursor => cursor.reader? = some (.ofList list))
      [cat, dog, cat] [reading cat, reading dog, reading cat] :=
    .cons rfl (.cons rfl (.cons rfl .nil))
  obtain ⟨-, -, -, documents, occurrences, -, nest⟩ := materialize_syn_union .body wellFormed read
  have flat := nest .body .body [] [reading cat, reading dog] [reading cat] nested rfl rfl
  exact ⟨documents, occurrences, by simpa only [List.nil_append] using flat⟩

end Cursor

end Retrieval
