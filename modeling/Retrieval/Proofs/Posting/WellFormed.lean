import Mathlib.Algebra.Ring.Nat
import Mathlib.Data.List.Perm.Subperm
import Retrieval.Proofs.Cursor.Movement
import Retrieval.Proofs.Posting.Ascending

/-!
# Well-formed lists

An inverted list is well formed if its postings stand by strictly ascending documents of the collection,
each with positions that it counts, and the counts of the list are those of its postings. Entering
occurrences keeps lists well formed, and the list operators make well-formed lists of such lists; so the
lists of all terms and list operators of an opened cursor are well formed, however deep they stand.
-/

namespace Retrieval

namespace Posting

/-- The posting has positions in a document of a collection with so many documents, and counts them. -/
structure IsPosted (documentCount : Nat) (posting : Posting) : Prop where
  /-- The document belongs to the collection. -/
  bounded : posting.document < documentCount
  /-- There is a position. -/
  occurs : posting.positions ≠ []
  /-- The frequency counts the positions. -/
  counts : posting.frequency = posting.positions.length

theorem ofPositions_isPosted {documentCount : Nat} {document : DocumentId} {positions : List Nat}
    (bounded : document < documentCount) (occurs : positions ≠ []) :
    (ofPositions document positions).IsPosted documentCount :=
  ⟨bounded, occurs, rfl⟩

theorem IsPosted.ofPositions_eq {documentCount : Nat} {posting : Posting}
    (isPosted : posting.IsPosted documentCount) :
    ofPositions posting.document posting.positions = posting := by
  rw [ofPositions, ← isPosted.counts]

end Posting

namespace InvertedList

/-- The list is one of a collection with so many documents. -/
structure WellFormed (documentCount : Nat) (list : InvertedList) : Prop where
  /-- The documents ascend strictly. -/
  ascending : list.Ascending
  /-- Each posting counts its positions in a document of the collection. -/
  posted : ∀ posting ∈ list.postings, posting.IsPosted documentCount
  /-- The list counts its documents. -/
  documentFrequency_eq : list.documentFrequency = list.postings.length
  /-- The list counts its occurrences. -/
  collectionFrequency_eq : list.collectionFrequency = (list.postings.map (·.frequency)).sum

theorem ofPostings_eq (field : Field) (postings : List Posting) :
    ofPostings field postings =
      ⟨field, (postings.map (·.frequency)).sum, postings.length, postings⟩ := by
  induction postings with
  | nil => rfl
  | cons posting later induction =>
      rw [ofPostings, List.foldr_cons, ← ofPostings, induction]
      simp [cons, Nat.add_comm posting.frequency]

variable {documentCount : Nat}

theorem empty_wellFormed (documentCount : Nat) (field : Field) :
    (empty field).WellFormed documentCount where
  ascending := empty_ascending field
  posted := by simp [empty]
  documentFrequency_eq := rfl
  collectionFrequency_eq := rfl

theorem ofPostings_wellFormed (field : Field) {postings : List Posting}
    (ascending : postings.Pairwise fun earlier later => earlier.document < later.document)
    (posted : ∀ posting ∈ postings, posting.IsPosted documentCount) :
    (ofPostings field postings).WellFormed documentCount where
  ascending := by simpa [Ascending] using ascending
  posted := by simpa using posted
  documentFrequency_eq := by simp [ofPostings_eq]
  collectionFrequency_eq := by simp [ofPostings_eq]

/-- A well-formed list is determined by its field and its postings. -/
theorem WellFormed.ofPostings_eq_self {list : InvertedList}
    (wellFormed : list.WellFormed documentCount) : ofPostings list.field list.postings = list := by
  rw [ofPostings_eq, ← wellFormed.documentFrequency_eq, ← wellFormed.collectionFrequency_eq]

/-- Documents that ascend strictly below a bound are no more than the bound. -/
theorem WellFormed.documentFrequency_le {list : InvertedList}
    (wellFormed : list.WellFormed documentCount) : list.documentFrequency ≤ documentCount := by
  have distinct : (list.postings.map (·.document)).Nodup :=
    List.pairwise_map.mpr (wellFormed.ascending.imp Nat.ne_of_lt)
  have inRange : list.postings.map (·.document) ⊆ List.range documentCount := by
    intro document member
    obtain ⟨posting, present, rfl⟩ := List.mem_map.mp member
    exact List.mem_range.mpr (wellFormed.posted posting present).bounded
  simpa [wellFormed.documentFrequency_eq] using (distinct.subperm inRange).length_le

/-! ## Entering occurrences -/

theorem cons_wellFormed {list : InvertedList} (wellFormed : list.WellFormed documentCount)
    {posting : Posting} (ascending : (list.cons posting).Ascending)
    (isPosted : posting.IsPosted documentCount) :
    (list.cons posting).WellFormed documentCount where
  ascending := ascending
  posted := List.forall_mem_cons.mpr ⟨isPosted, wellFormed.posted⟩
  documentFrequency_eq := by simp [cons, wellFormed.documentFrequency_eq]
  collectionFrequency_eq := by
    simp [cons, wellFormed.collectionFrequency_eq, Nat.add_comm posting.frequency]

theorem enter_wellFormed {list : InvertedList} {document : DocumentId} (position : Nat)
    (wellFormed : list.WellFormed documentCount) (starts : list.StartsFrom document)
    (bounded : document < documentCount) :
    (list.enter document position).WellFormed documentCount := by
  have ascending := (enter_ascending position wellFormed.ascending starts).1
  have single : (Posting.ofPositions document [position]).IsPosted documentCount :=
    Posting.ofPositions_isPosted bounded (List.cons_ne_nil position [])
  rw [enter] at ascending ⊢
  split at ascending
  · exact cons_wellFormed wellFormed ascending single
  · next posting later split =>
      split at ascending
      · next same =>
          obtain ⟨-, posted, documents, occurrences⟩ := wellFormed
          rw [split] at posted documents occurrences
          obtain ⟨present, others⟩ := List.forall_mem_cons.mp posted
          rw [if_pos same]
          exact
            { ascending
              posted := List.forall_mem_cons.mpr
                ⟨⟨bounded, List.cons_ne_nil _ _, by simp [present.counts]⟩, others⟩
              documentFrequency_eq := by simpa using documents
              collectionFrequency_eq := by simp [occurrences, Nat.add_right_comm] }
      · next differs =>
          rw [if_neg differs]
          exact cons_wellFormed wellFormed ascending single

/-! ## Appending postings -/

/-- The list with one more posting at its end, refused unless the document is beyond all that the list
holds. -/
def append? (list : InvertedList) (document : DocumentId) (positions : List Nat) :
    Option InvertedList :=
  if list.postings.getLast?.all (·.document < document) then
    some
      { list with
        collectionFrequency := list.collectionFrequency + positions.length
        documentFrequency := list.documentFrequency + 1
        postings := list.postings ++ [.ofPositions document positions] }
  else none

theorem append?_ofPostings (field : Field) {before : List Posting} {posting : Posting}
    (beyond : ∀ earlier ∈ before, earlier.document < posting.document)
    (isPosted : posting.IsPosted documentCount) :
    (ofPostings field before).append? posting.document posting.positions =
      some (ofPostings field (before ++ [posting])) := by
  have accepted : before.getLast?.all (·.document < posting.document) = true := by
    cases last : before.getLast? with
    | none => rfl
    | some earlier => simpa using beyond earlier (List.mem_of_getLast? last)
  rw [append?, ofPostings_postings, if_pos accepted, isPosted.ofPositions_eq]
  simp [ofPostings_eq, isPosted.counts]

/-- Appended in their order, the postings of a well-formed list are never refused, and they make up the
list. -/
theorem WellFormed.foldlM_append? {list : InvertedList} (wellFormed : list.WellFormed documentCount) :
    list.postings.foldlM (fun built posting => built.append? posting.document posting.positions)
      (empty list.field) = some list := by
  have continued : ∀ before after, before ++ after = list.postings →
      after.foldlM (fun built posting => built.append? posting.document posting.positions)
        (ofPostings list.field before) = some (ofPostings list.field (before ++ after)) := by
    intro before after
    induction after generalizing before with
    | nil => simp
    | cons posting after induction =>
        intro split
        have ascending := wellFormed.ascending
        rw [Ascending, ← split] at ascending
        have beyond := fun earlier member =>
          (List.pairwise_append.mp ascending).2.2 earlier member posting List.mem_cons_self
        have isPosted := wellFormed.posted posting (by simp [← split])
        rw [List.foldlM_cons, append?_ofPostings list.field beyond isPosted]
        simpa using induction (before ++ [posting]) (by simpa using split)
  have whole := continued [] list.postings rfl
  rwa [List.nil_append, wellFormed.ofPostings_eq_self] at whole

end InvertedList

/-! ## The lists of an index -/

/-- All inverted lists of terms are well formed. -/
def Index.WellFormed (index : Index) : Prop :=
  ∀ field term, (index.invertedList field term).WellFormed index.documentCount

theorem Index.ofDocuments_wellFormed (documents : List Document) (stopwords : List String) :
    (Index.ofDocuments documents stopwords).WellFormed := by
  intro field term
  refine (ListTable.foldr_enterDocument_keeps
    (fun document list => list.WellFormed documents.length ∧ list.StartsFrom document)
    (fun field => ?_) (fun document list position bounded kept => ?_)
    (fun document list kept => ?_) documents (Nat.zero_add documents.length) field term).1
  · exact ⟨InvertedList.empty_wellFormed _ field, InvertedList.empty_startsFrom field _⟩
  · obtain ⟨wellFormed, starts⟩ := kept
    exact ⟨InvertedList.enter_wellFormed position wellFormed starts bounded,
      (InvertedList.enter_ascending position wellFormed.ascending starts).2⟩
  · exact ⟨kept.1, kept.2.weaken (Nat.le_succ document)⟩

/-! ## The postings that merges write -/

@[simp]
theorem Reader.skip_list (passed : DocumentId → Bool) (reader : Reader) :
    (reader.skip passed).list = reader.list := by
  rw [skip]
  split
  · rfl
  · split <;> rfl

theorem Reader.mem_postings_of_mem_skip {passed : DocumentId → Bool} {reader : Reader}
    {posting : Posting} (member : posting ∈ (reader.skip passed).postings) :
    posting ∈ reader.postings := by
  rw [skip] at member
  split at member
  · exact member
  · next first later split =>
      split at member
      · rw [split]
        exact List.mem_cons_of_mem first ((List.dropWhile_sublist _).subset member)
      · exact member

namespace Cursor

variable {ω : Type}

/-- What the cursor has still to read is sound for its field, and a cursor without a list stands on no
document. -/
structure Reads (sound : Field → Posting → Prop) (cursor : Cursor ω) : Prop where
  /-- The postings ahead are sound. -/
  ahead : ∀ reader, cursor.reader? = some reader →
    ∀ posting ∈ reader.postings, sound cursor.field posting
  /-- Without a list there is no document. -/
  idle : cursor.isList = false → cursor.current? = none

namespace Reads

variable {sound : Field → Posting → Prop}

theorem skip {cursor moved : Cursor ω} (reads : cursor.Reads sound) (passed : DocumentId → Bool)
    (same : moved.query = cursor.query) (isList : cursor.isList = true)
    (skips : moved.reader? = cursor.reader?.map (·.skip passed)) : moved.Reads sound where
  ahead := by
    intro reader known posting member
    obtain ⟨before, knownBefore, rfl⟩ := Option.map_eq_some_iff.mp (skips.symm.trans known)
    rw [field_eq, same, ← field_eq]
    exact reads.ahead before knownBefore posting (Reader.mem_postings_of_mem_skip member)
  idle := by
    rw [isList_eq, same, ← isList_eq, isList]
    exact fun absent => absurd absent Bool.noConfusion

theorem isKept (sound : Field → Posting → Prop) :
    IsKept fun cursor : Cursor ω => cursor.Reads sound where
  advancePast := by
    intro document cursor reads
    have same := query_advancePast document cursor
    cases cursor with
    | term => exact reads.skip (· ≤ document) same rfl (by simp [advancePast, reader?])
    | list => exact reads.skip (· ≤ document) same rfl (by simp [advancePast, reader?])
    | scoring => exact ⟨by simp [advancePast, reader?], by simp [advancePast, current?]⟩
  advanceTo := by
    intro document cursor reads
    have same := query_advanceTo document cursor
    cases cursor with
    | term => exact reads.skip (· < document) same rfl (by simp [advanceTo, reader?])
    | list => exact reads.skip (· < document) same rfl (by simp [advanceTo, reader?])
    | scoring =>
        rw [advanceTo]
        split
        · exact reads
        · exact ⟨by simp [reader?], by simp [current?]⟩

/-- A cursor that stands on a document has a sound posting there. -/
theorem exists_of_current? {cursor : Cursor ω} (reads : cursor.Reads sound) {document : DocumentId}
    (current : cursor.current? = some document) :
    ∃ posting, posting.document = document ∧ sound cursor.field posting ∧
      cursor.positions = posting.positions := by
  cases isList : cursor.isList with
  | false => simp [reads.idle isList] at current
  | true =>
      have standing : cursor.current? = cursor.reader?.bind (·.current?) := by
        cases cursor with
        | scoring => simp [Cursor.isList] at isList
        | term => rfl
        | list => rfl
      obtain ⟨reader, known, found⟩ := Option.bind_eq_some_iff.mp (standing.symm.trans current)
      obtain ⟨posting, head, rfl⟩ := Option.map_eq_some_iff.mp found
      have present : cursor.posting? = some posting := by simp [posting?, known, head]
      exact ⟨posting, rfl, reads.ahead reader known posting (List.mem_of_mem_head? head),
        by simp [positions, present]⟩

/-- A posting of a union has the positions of some operand in its document, if it has any. -/
theorem exists_of_mem_unite (rounds : Nat) {cursors : List (Cursor ω)}
    (reads : ∀ cursor ∈ cursors, cursor.Reads sound) {posting : Posting}
    (member : posting ∈ (unite rounds cursors).1) :
    ∃ field source, sound field source ∧ source.document = posting.document ∧
      source.positions ⊆ posting.positions ∧
      posting = .ofPositions posting.document posting.positions := by
  obtain ⟨standing, readsEach, least, written⟩ :=
    (isKept sound).exists_of_mem_unite rounds reads member
  obtain ⟨⟨cursor, among, current⟩, -⟩ := earliest_eq_some_iff.mp least
  obtain ⟨source, same, isSound, positions_eq⟩ := (readsEach cursor among).exists_of_current? current
  refine ⟨cursor.field, source, isSound, same, fun position occurs => ?_, ?_⟩
  · rw [written, Posting.ofPositions, List.mem_mergeSort, List.mem_flatMap]
    exact ⟨cursor, List.mem_filter.mpr ⟨among, by simpa using current⟩, positions_eq ▸ occurs⟩
  · rw [written]
    rfl

/-- A posting of a proximity operator has positions, found from those of the first operand in its
document. -/
theorem exists_of_mem_proximity {combine : List (List Nat) → List Nat} {cursors : List (Cursor ω)}
    (reads : ∀ cursor ∈ cursors, cursor.Reads sound) {posting : Posting}
    (member : posting ∈ (proximity combine cursors).1) :
    ∃ source others, sound (fieldOf cursors) source ∧ source.document = posting.document ∧
      combine (source.positions :: others) ≠ [] ∧
      posting = .ofPositions posting.document (combine (source.positions :: others)) := by
  obtain ⟨leading, later, readsEach, same, current, nonempty, written⟩ :=
    (isKept sound).exists_of_mem_proximity reads member
  obtain ⟨source, document_eq, isSound, positions_eq⟩ :=
    (readsEach leading List.mem_cons_self).exists_of_current? current
  have leads : leading.field = fieldOf cursors := by
    rw [fieldOf_eq, ← same, ← fieldOf_eq, fieldOf]
  rw [List.map_cons, positions_eq] at nonempty written
  exact ⟨source, later.map positions, leads ▸ isSound, document_eq, nonempty, written⟩

end Reads

/-! ## The lists of list operators -/

variable {documentCount : Nat}

theorem unite_isPosted (rounds : Nat) {cursors : List (Cursor ω)}
    (reads : ∀ cursor ∈ cursors, cursor.Reads fun _ posting => posting.IsPosted documentCount) :
    ∀ posting ∈ (unite rounds cursors).1, posting.IsPosted documentCount := by
  intro posting member
  obtain ⟨field, source, isPosted, same, includes, written⟩ := Reads.exists_of_mem_unite rounds reads member
  obtain ⟨position, occurs⟩ := List.exists_mem_of_ne_nil _ isPosted.occurs
  rw [written]
  exact Posting.ofPositions_isPosted (same ▸ isPosted.bounded) (List.ne_nil_of_mem (includes occurs))

theorem proximity_isPosted (combine : List (List Nat) → List Nat) {cursors : List (Cursor ω)}
    (reads : ∀ cursor ∈ cursors, cursor.Reads fun _ posting => posting.IsPosted documentCount) :
    ∀ posting ∈ (proximity combine cursors).1, posting.IsPosted documentCount := by
  intro posting member
  obtain ⟨source, others, isPosted, same, occurs, written⟩ := Reads.exists_of_mem_proximity reads member
  rw [written]
  exact Posting.ofPositions_isPosted (same ▸ isPosted.bounded) occurs

/-- A list operator makes a well-formed list if its operands read well-formed lists. -/
theorem materialize_wellFormed (field : Field) (operator : ListOperator) {operands : List (Cursor ω)}
    (reads : ∀ operand ∈ operands, operand.Reads fun _ posting => posting.IsPosted documentCount)
    (wellFormed : ∀ operand ∈ operands, ∀ list, operand.invertedList? = some list →
      list.WellFormed documentCount) :
    (materialize field operator operands).1.WellFormed documentCount := by
  have alone : ∀ operand ∈ operands,
      (operand.invertedList?.getD (.empty field)).WellFormed documentCount := by
    intro operand member
    cases known : operand.invertedList? with
    | none => exact InvertedList.empty_wellFormed documentCount field
    | some list => exact wellFormed operand member list known
  unfold materialize
  split
  · exact InvertedList.ofPostings_wellFormed field (unite_ascending _ _) (unite_isPosted _ reads)
  · exact InvertedList.empty_wellFormed documentCount field
  · exact alone _ List.mem_cons_self
  · exact InvertedList.ofPostings_wellFormed field (proximity_ascending _ _)
      (proximity_isPosted _ reads)
  · exact InvertedList.ofPostings_wellFormed field (proximity_ascending _ _)
      (proximity_isPosted _ reads)

/-! ## The lists of an opened cursor -/

mutual

/-- The inverted lists of all terms and list operators, nothing standing for one that has not been
opened. -/
def lists : Cursor ω → List (Option InvertedList)
  | .term _ _ reader => [reader.map (·.list)]
  | .list _ operands _ reader => reader.map (·.list) :: listsOfEach operands
  | .scoring _ operands _ _ _ => listsOfEach operands

/-- The inverted lists of all terms and list operators of several cursors. -/
def listsOfEach : List (Cursor ω) → List (Option InvertedList)
  | [] => []
  | cursor :: later => cursor.lists ++ listsOfEach later

end

theorem mem_listsOfEach {cursors : List (Cursor ω)} {found : Option InvertedList} :
    found ∈ listsOfEach cursors ↔ ∃ cursor ∈ cursors, found ∈ cursor.lists := by
  induction cursors with
  | nil => simp [listsOfEach]
  | cons cursor later induction => simp [listsOfEach, induction]

theorem mem_lists_of_invertedList? {cursor : Cursor ω} {list : InvertedList}
    (known : cursor.invertedList? = some list) : some list ∈ cursor.lists := by
  cases cursor with
  | term text field reader =>
      have here : reader.map (·.list) = some list := known
      simp [lists, here]
  | list operator operands weights reader =>
      have here : reader.map (·.list) = some list := known
      simp [lists, here]
  | scoring => simp [invertedList?, reader?] at known

mutual

theorem lists_advancePast (document : DocumentId) :
    ∀ cursor : Cursor ω, (cursor.advancePast document).lists = cursor.lists
  | .term .. => by simp [advancePast, lists, Function.comp_def]
  | .list .. => by simp [advancePast, lists, Function.comp_def]
  | .scoring _ operands .. => by
      rw [advancePast, lists, lists, listsOfEach_advancePastEach document operands]

theorem listsOfEach_advancePastEach (document : DocumentId) :
    ∀ cursors : List (Cursor ω), listsOfEach (advancePastEach document cursors) = listsOfEach cursors
  | [] => by simp [advancePastEach]
  | cursor :: later => by
      rw [advancePastEach, listsOfEach, listsOfEach, lists_advancePast document cursor,
        listsOfEach_advancePastEach document later]

end

mutual

theorem lists_advanceTo (document : DocumentId) :
    ∀ cursor : Cursor ω, (cursor.advanceTo document).lists = cursor.lists
  | .term .. => by simp [advanceTo, lists, Function.comp_def]
  | .list .. => by simp [advanceTo, lists, Function.comp_def]
  | .scoring _ operands .. => by
      rw [advanceTo]
      split
      · rfl
      · rw [lists, lists, listsOfEach_advanceToEach document operands]

theorem listsOfEach_advanceToEach (document : DocumentId) :
    ∀ cursors : List (Cursor ω), listsOfEach (advanceToEach document cursors) = listsOfEach cursors
  | [] => by simp [advanceToEach]
  | cursor :: later => by
      rw [advanceToEach, listsOfEach, listsOfEach, lists_advanceTo document cursor,
        listsOfEach_advanceToEach document later]

end

/-- All lists of the cursor are well formed, and what it has still to read is from such a list. -/
structure WellFormed (documentCount : Nat) (cursor : Cursor ω) : Prop where
  /-- What is ahead of the cursor are postings of the collection. -/
  reads : cursor.Reads fun _ posting => posting.IsPosted documentCount
  /-- All lists have been opened and are well formed. -/
  listed : ∀ found ∈ cursor.lists, ∃ list, found = some list ∧ list.WellFormed documentCount

namespace WellFormed

theorem isKept (documentCount : Nat) :
    IsKept fun cursor : Cursor ω => cursor.WellFormed documentCount where
  advancePast document cursor wellFormed :=
    ⟨(Reads.isKept _).advancePast document cursor wellFormed.reads,
      lists_advancePast document cursor ▸ wellFormed.listed⟩
  advanceTo document cursor wellFormed :=
    ⟨(Reads.isKept _).advanceTo document cursor wellFormed.reads,
      lists_advanceTo document cursor ▸ wellFormed.listed⟩

theorem invertedList? {cursor : Cursor ω} (wellFormed : cursor.WellFormed documentCount)
    {list : InvertedList} (known : cursor.invertedList? = some list) :
    list.WellFormed documentCount := by
  obtain ⟨found, same, isWellFormed⟩ := wellFormed.listed _ (mem_lists_of_invertedList? known)
  exact Option.some.inj same ▸ isWellFormed

end WellFormed

/-- A cursor at the beginning of a well-formed list reads the postings of the collection. -/
theorem reads_ofList {cursor : Cursor ω} {list : InvertedList}
    (wellFormed : list.WellFormed documentCount) (isList : cursor.isList = true)
    (begins : cursor.reader? = some (.ofList list)) :
    cursor.Reads fun _ posting => posting.IsPosted documentCount where
  ahead := by
    intro reader known posting member
    obtain rfl := Option.some.inj (begins.symm.trans known)
    exact wellFormed.posted posting member
  idle := by simp [isList]

variable [Arithmetic ω] {index : Index}

mutual

theorem openOn_wellFormed (wellFormed : index.WellFormed) :
    ∀ cursor : Cursor ω, (cursor.openOn index).WellFormed index.documentCount
  | .term text field _ => by
      have isWellFormed := wellFormed field text
      rw [openOn]
      refine ⟨reads_ofList isWellFormed rfl rfl, ?_⟩
      simpa [lists, Reader.ofList, Reader.enter] using isWellFormed
  | .list operator operands _ _ => by
      have opened := openEachOn_wellFormed wellFormed operands
      have made := materialize_wellFormed (fieldOf (openEachOn index operands)) operator
        (fun operand member => (opened operand member).reads)
        (fun operand member list => (opened operand member).invertedList?)
      have left := (WellFormed.isKept index.documentCount).materialize
        (fieldOf (openEachOn index operands)) operator opened
      rw [openOn]
      refine ⟨reads_ofList made rfl rfl, ?_⟩
      rw [lists]
      refine List.forall_mem_cons.mpr ⟨⟨_, rfl, made⟩, fun found member => ?_⟩
      obtain ⟨operand, among, here⟩ := mem_listsOfEach.mp member
      exact (left operand among).listed found here
  | .scoring _ operands _ _ _ => by
      have opened := openEachOn_wellFormed wellFormed operands
      rw [openOn]
      refine ⟨⟨by simp [reader?], by simp [current?]⟩, fun found member => ?_⟩
      rw [lists] at member
      obtain ⟨operand, among, here⟩ := mem_listsOfEach.mp member
      exact (opened operand among).listed found here

theorem openEachOn_wellFormed (wellFormed : index.WellFormed) :
    ∀ cursors : List (Cursor ω), ∀ cursor ∈ openEachOn index cursors,
      cursor.WellFormed index.documentCount
  | [] => by simp [openEachOn]
  | cursor :: later => by
      rw [openEachOn]
      exact List.forall_mem_cons.mpr
        ⟨openOn_wellFormed wellFormed cursor, openEachOn_wellFormed wellFormed later⟩

end

/-- Whatever tree of terms and operators is opened on the index of a collection, all its terms and list
operators have lists, at any depth; these are well formed, and appending their postings one after the
other is never refused. -/
theorem wellFormed_of_mem_lists_openOn (documents : List Document) (stopwords : List String)
    (cursor : Cursor ω) {found : Option InvertedList}
    (member : found ∈ (cursor.openOn (.ofDocuments documents stopwords)).lists) :
    ∃ list, found = some list ∧ list.WellFormed documents.length ∧
      list.documentFrequency ≤ documents.length ∧
      list.postings.foldlM (fun built posting => built.append? posting.document posting.positions)
        (.empty list.field) = some list := by
  have opened := openOn_wellFormed (Index.ofDocuments_wellFormed documents stopwords) cursor
  obtain ⟨list, rfl, wellFormed⟩ := opened.listed found member
  exact ⟨list, rfl, wellFormed, wellFormed.documentFrequency_le, wellFormed.foldlM_append?⟩

/-- The theorem for a phrase whose second word has a synonym, on a collection of two documents. -/
theorem wellFormed_of_mem_lists_openOn_near :
    let near : Cursor Float :=
      .list (.near 1)
        [.term "new" .body none,
          .list .syn [.term "york" .body none, .term "city" .body none] [1, 1] none]
        [1, 1] none
    let documents : List Document :=
      [⟨"first", ⟨["new", "york", "new", "city"], [], [], [], []⟩⟩,
        ⟨"second", ⟨["york"], ["new"], [], [], []⟩⟩]
    ∃ list, (near.openOn (.ofDocuments documents [])).invertedList? = some list ∧
      list.WellFormed 2 ∧ list.documentFrequency ≤ 2 ∧
      list.postings.foldlM (fun built posting => built.append? posting.document posting.positions)
        (.empty list.field) = some list := by
  intro near documents
  refine wellFormed_of_mem_lists_openOn documents [] near ?_
  rw [openOn, lists]
  exact List.mem_cons_self

end Cursor

end Retrieval
