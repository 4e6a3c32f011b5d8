import Mathlib.Data.List.Dedup
import Retrieval.Proofs.Cursor.Documents
import Retrieval.Proofs.Posting.WellFormed

/-!
# The lists of a collection

The list of a term has a posting for each document with the term in the field, with all offsets of the
term there, and nothing else. The index enters the occurrences one by one, from the last document to the
first. Appending the postings document by document, each with all offsets of a term, gives the same
lists, in whatever order the fields and terms of a document come.
-/

namespace Retrieval

namespace InvertedList

/-- The list is that of a term in a field of the documents. -/
structure IsOf (documents : List Document) (field : Field) (term : String) (list : InvertedList) :
    Prop where
  /-- The list is of the field. -/
  field_eq : list.field = field
  /-- The documents ascend strictly. -/
  ascending : list.Ascending
  /-- The documents of the list are those with the term in the field. -/
  mem_documents_iff : ∀ number, number ∈ list.documents ↔
    ∃ document, documents[number]? = some document ∧ term ∈ document.fields.get field
  /-- The positions in a document are the offsets of the term, which ascend. -/
  positions : ∀ posting ∈ list.postings, ∀ document, documents[posting.document]? = some document →
    posting.positions.Pairwise (· < ·) ∧ ∀ position, position ∈ posting.positions ↔
      (document.fields.get field)[position]? = some term
  /-- Each posting counts its positions. -/
  frequency_eq : ∀ posting ∈ list.postings, posting.frequency = posting.positions.length
  /-- The list counts the documents with the term. -/
  documentFrequency_eq : list.documentFrequency =
    documents.countP fun document => (document.fields.get field).contains term
  /-- The list counts the occurrences of the term. -/
  collectionFrequency_eq : list.collectionFrequency =
    (documents.map fun document => (document.fields.get field).count term).sum

/-- All occurrences of one document, entered ahead of greater documents, make up one posting. -/
theorem foldr_enter {list : InvertedList} {document : DocumentId}
    (starts : list.StartsFrom (document + 1)) (positions : List Nat) :
    positions.foldr (enter document) list =
      if positions = [] then list else list.cons (.ofPositions document positions) := by
  induction positions with
  | nil => rfl
  | cons position later induction =>
      rw [List.foldr_cons, induction, if_neg (List.cons_ne_nil position later)]
      split
      · next empty =>
          rw [enter, empty]
          split
          · rfl
          · next posting _ split =>
              have beyond := starts posting (split ▸ List.mem_cons_self)
              rw [if_neg (Nat.ne_of_gt beyond)]
      · simp [enter, cons, Posting.ofPositions, Nat.add_assoc]

end InvertedList

namespace Document

variable {field : Field} {term : String} {number : DocumentId} {document : Document}
  {posting : Posting}

/-- The posting of a term in a field; none if the term does not occur there. -/
def posting? (field : Field) (term : String) (number : DocumentId) (document : Document) :
    Option Posting :=
  let positions := (document.fields.get field).idxsOf term
  if positions = [] then none else some (.ofPositions number positions)

theorem idxsOf_eq_nil_iff : (document.fields.get field).idxsOf term = [] ↔
    term ∉ document.fields.get field := by
  simp only [List.idxsOf_eq_nil_iff, beq_eq_false_iff_ne]
  exact ⟨fun absent present => absent term present rfl,
    fun absent token present same => absent (same ▸ present)⟩

theorem posting?_eq_some_iff : document.posting? field term number = some posting ↔
    term ∈ document.fields.get field ∧
      posting = .ofPositions number ((document.fields.get field).idxsOf term) := by
  rw [posting?]
  split
  · next empty => simpa using fun present => absurd present (idxsOf_eq_nil_iff.mp empty)
  · next occurs =>
      have present := not_not.mp fun absent => occurs (idxsOf_eq_nil_iff.mpr absent)
      simpa [present] using eq_comm

theorem posting?_eq_none (absent : term ∉ document.fields.get field) :
    document.posting? field term number = none := by
  simpa [posting?, idxsOf_eq_nil_iff] using absent

end Document

/-- The postings of a term in a field of documents that are numbered from a given one on. -/
def postingsFrom (field : Field) (term : String) (start : DocumentId) (documents : List Document) :
    List Posting :=
  (documents.zipIdx start).filterMap fun (document, number) => document.posting? field term number

section

variable {field : Field} {term : String} {start : DocumentId} {document : Document}
  {documents : List Document}

theorem postingsFrom_cons : postingsFrom field term start (document :: documents) =
    (document.posting? field term start).toList ++
      postingsFrom field term (start + 1) documents := by
  rw [postingsFrom, List.zipIdx_cons, List.filterMap_cons]
  dsimp only
  cases document.posting? field term start <;> rfl

theorem mem_postingsFrom_iff {posting : Posting} : posting ∈ postingsFrom field term 0 documents ↔
    ∃ document, documents[posting.document]? = some document ∧ term ∈ document.fields.get field ∧
      posting = .ofPositions posting.document ((document.fields.get field).idxsOf term) := by
  simp only [postingsFrom, List.mem_filterMap, Prod.exists, List.mem_zipIdx_iff_getElem?,
    Document.posting?_eq_some_iff]
  constructor
  · rintro ⟨document, number, here, present, rfl⟩
    exact ⟨document, here, present, rfl⟩
  · rintro ⟨document, here, present, same⟩
    exact ⟨document, posting.document, here, present, same⟩

end

/-! ## Entering occurrences one by one -/

namespace ListTable

theorem find_enterTokens (lists : ListTable) (document : DocumentId) (field found : Field)
    (tokens : List String) (term : String) :
    (lists.enterTokens document field tokens).find found term =
      if field = found then (tokens.idxsOf term).foldr (.enter document) (lists.find found term)
      else lists.find found term := by
  rw [enterTokens]
  generalize 0 = start
  induction tokens generalizing start with
  | nil => simp
  | cons token tokens induction =>
      simp only [List.zipIdx_cons, List.foldr_cons, find_insert, List.idxsOf_cons, Prod.mk.injEq]
      by_cases here : field = found
      · subst here
        by_cases same : token = term
        · subst same
          simp [induction]
        · simp [same, induction]
      · simp [here, induction]

theorem find_enterDocument (lists : ListTable) (document : DocumentId)
    (fields : FieldTable (List String)) (field : Field) (term : String) :
    (lists.enterDocument document fields).find field term =
      ((fields.get field).idxsOf term).foldr (.enter document) (lists.find field term) := by
  cases field <;> simp [enterDocument, Field.all, find_enterTokens]

theorem find_foldr_enterDocument (documents : List Document) (start : DocumentId) (field : Field)
    (term : String) :
    ((documents.zipIdx start).foldr (fun (document, number) lists =>
      lists.enterDocument number document.fields) (∅ : ListTable)).find field term =
        .ofPostings field (postingsFrom field term start documents) := by
  induction documents generalizing start with
  | nil => simp [find, postingsFrom, InvertedList.ofPostings]
  | cons document later induction =>
      have starts := (foldr_enterDocument_ascendingFrom later (start + 1) field term).2
      rw [List.zipIdx_cons, List.foldr_cons, find_enterDocument, InvertedList.foldr_enter starts,
        induction, postingsFrom_cons, Document.posting?]
      split <;> rfl

end ListTable

/-- The list of a term has the postings of the term in all documents. -/
theorem Index.invertedList_ofDocuments (documents : List Document) (stopwords : List String)
    (field : Field) (term : String) :
    (Index.ofDocuments documents stopwords).invertedList field term =
      .ofPostings field (postingsFrom field term 0 documents) :=
  ListTable.find_foldr_enterDocument documents 0 field term

theorem length_postingsFrom (field : Field) (term : String) (start : DocumentId)
    (documents : List Document) : (postingsFrom field term start documents).length =
      documents.countP fun document => (document.fields.get field).contains term := by
  induction documents generalizing start with
  | nil => rfl
  | cons document later induction =>
      rw [postingsFrom_cons, List.length_append, induction, List.countP_cons, Nat.add_comm]
      by_cases present : term ∈ document.fields.get field
      · simp [Document.posting?_eq_some_iff.mpr ⟨present, rfl⟩, present]
      · simp [Document.posting?_eq_none present, present]

theorem sum_frequency_postingsFrom (field : Field) (term : String) (start : DocumentId)
    (documents : List Document) :
    ((postingsFrom field term start documents).map (·.frequency)).sum =
      (documents.map fun document => (document.fields.get field).count term).sum := by
  induction documents generalizing start with
  | nil => rfl
  | cons document later induction =>
      rw [postingsFrom_cons, List.map_append, List.sum_append, induction, List.map_cons,
        List.sum_cons]
      by_cases present : term ∈ document.fields.get field
      · simp [Document.posting?_eq_some_iff.mpr ⟨present, rfl⟩, Posting.ofPositions]
      · simp [Document.posting?_eq_none present, List.count_eq_zero_of_not_mem present]

theorem Index.isOf_invertedList (documents : List Document) (stopwords : List String) (field : Field)
    (term : String) :
    ((Index.ofDocuments documents stopwords).invertedList field term).IsOf documents field term := by
  have ascending := Index.ofDocuments_ascending documents stopwords field term
  rw [invertedList_ofDocuments] at ascending ⊢
  exact
    { field_eq := by rw [InvertedList.ofPostings_eq]
      ascending
      mem_documents_iff := by
        intro number
        simp only [InvertedList.mem_documents, InvertedList.ofPostings_postings,
          mem_postingsFrom_iff]
        constructor
        · rintro ⟨posting, ⟨document, here, present, -⟩, rfl⟩
          exact ⟨document, here, present⟩
        · rintro ⟨document, here, present⟩
          exact ⟨.ofPositions number _, ⟨document, here, present, rfl⟩, rfl⟩
      positions := by
        intro posting member document here
        rw [InvertedList.ofPostings_postings, mem_postingsFrom_iff] at member
        obtain ⟨other, there, -, written⟩ := member
        obtain rfl := Option.some.inj (there.symm.trans here)
        rw [written]
        refine ⟨List.pairwise_idxsOf, fun position => ?_⟩
        simp [Posting.ofPositions, List.getElem?_eq_some_iff]
      frequency_eq := by
        intro posting member
        rw [InvertedList.ofPostings_postings, mem_postingsFrom_iff] at member
        obtain ⟨document, -, -, written⟩ := member
        rw [written]
        rfl
      documentFrequency_eq := by
        rw [InvertedList.ofPostings_eq]
        exact length_postingsFrom field term 0 documents
      collectionFrequency_eq := by
        rw [InvertedList.ofPostings_eq]
        exact sum_frequency_postingsFrom field term 0 documents }

/-! ## Appending postings term by term -/

/-- An order in which the terms of a document come: each term of each field once. -/
structure Document.TermOrder (document : Document) where
  /-- The fields and terms. -/
  keys : List (Field × String)
  /-- None comes twice. -/
  nodup : keys.Nodup
  /-- They are those of the document. -/
  mem_iff : ∀ field term, (field, term) ∈ keys ↔ term ∈ document.fields.get field

/-- The terms by field, each at its last occurrence. -/
instance (document : Document) : Inhabited document.TermOrder where
  default :=
    { keys := (Field.all.flatMap fun field => (document.fields.get field).map (field, ·)).dedup
      nodup := List.nodup_dedup _
      mem_iff := by
        intro field term
        cases field <;> simp [Field.all] }

namespace ListTable

/-- Appends a posting to the list of each of the given terms, with all offsets of the term in the
document. -/
def appendTerms? (number : DocumentId) (document : Document) (keys : List (Field × String))
    (lists : ListTable) : Option ListTable :=
  keys.foldlM (fun lists (field, term) => do
    let list ← (lists.find field term).append? number ((document.fields.get field).idxsOf term)
    return lists.insert (field, term) list) lists

/-- Appends the postings of the documents, from the first to the last. -/
def appendDocuments? (order : DocumentId → (document : Document) → document.TermOrder)
    (start : DocumentId) (documents : List Document) (lists : ListTable) : Option ListTable :=
  (documents.zipIdx start).foldlM (fun lists (document, number) =>
    lists.appendTerms? number document (order number document).keys) lists

/-- If each list accepts its posting, then all do, one after the other. -/
theorem appendTerms?_eq_some {number : DocumentId} {document : Document}
    {keys : List (Field × String)} (nodup : keys.Nodup) {lists : ListTable}
    {next : Field → String → InvertedList}
    (accepted : ∀ field term, (field, term) ∈ keys →
      (lists.find field term).append? number ((document.fields.get field).idxsOf term) =
        some (next field term)) :
    ∃ after, lists.appendTerms? number document keys = some after ∧
      ∀ field term, after.find field term =
        if (field, term) ∈ keys then next field term else lists.find field term := by
  induction keys generalizing lists with
  | nil => exact ⟨lists, rfl, by simp⟩
  | cons key keys induction =>
      obtain ⟨field, term⟩ := key
      obtain ⟨fresh, nodup⟩ := List.nodup_cons.mp nodup
      let entered := lists.insert (field, term) (next field term)
      have acceptedLater : ∀ other word, (other, word) ∈ keys →
          (find entered other word).append? number ((document.fields.get other).idxsOf word) =
            some (next other word) := by
        intro other word member
        have differs : (field, term) ≠ (other, word) := fun same => fresh (same ▸ member)
        rw [find_insert, if_neg differs]
        exact accepted other word (List.mem_cons_of_mem _ member)
      obtain ⟨after, appended, found⟩ := induction nodup acceptedLater
      refine ⟨after, ?_, fun other word => ?_⟩
      · have here := accepted field term List.mem_cons_self
        rw [appendTerms?, List.foldlM_cons]
        dsimp only
        rw [here]
        exact appended
      · simp only [found, entered, find_insert, List.mem_cons]
        by_cases here : (field, term) = (other, word)
        · obtain ⟨rfl, rfl⟩ := Prod.mk.inj here
          simp [fresh]
        · simp [here, Ne.symm here]

/-- A document beyond those of all lists is accepted with all its terms. -/
theorem appendTerms?_ofPostings {number : DocumentId} {document : Document}
    (order : document.TermOrder) {lists : ListTable} {before : Field → String → List Posting}
    (holds : ∀ field term, lists.find field term = .ofPostings field (before field term))
    (beyond : ∀ field term, ∀ posting ∈ before field term, posting.document < number) :
    ∃ after, lists.appendTerms? number document order.keys = some after ∧
      ∀ field term, after.find field term =
        .ofPostings field (before field term ++ (document.posting? field term number).toList) := by
  have accepted (field : Field) (term : String) (member : (field, term) ∈ order.keys) :
      (lists.find field term).append? number ((document.fields.get field).idxsOf term) =
        some (.ofPostings field
          (before field term ++ (document.posting? field term number).toList)) := by
    have present := (order.mem_iff field term).mp member
    have occurs := mt Document.idxsOf_eq_nil_iff.mp (not_not.mpr present)
    rw [holds, Document.posting?_eq_some_iff.mpr ⟨present, rfl⟩]
    exact InvertedList.append?_ofPostings field (beyond field term)
      (Posting.ofPositions_isPosted (Nat.lt_succ_self number) occurs)
  obtain ⟨after, appended, found⟩ := appendTerms?_eq_some order.nodup accepted
  refine ⟨after, appended, fun field term => ?_⟩
  rw [found]
  split
  · rfl
  · next absent =>
      rw [order.mem_iff] at absent
      simp [holds, Document.posting?_eq_none absent]

theorem appendDocuments?_eq_some
    (order : DocumentId → (document : Document) → document.TermOrder) (start : DocumentId)
    (documents : List Document) {lists : ListTable} {before : Field → String → List Posting}
    (holds : ∀ field term, lists.find field term = .ofPostings field (before field term))
    (beyond : ∀ field term, ∀ posting ∈ before field term, posting.document < start) :
    ∃ after, lists.appendDocuments? order start documents = some after ∧
      ∀ field term, after.find field term =
        .ofPostings field (before field term ++ postingsFrom field term start documents) := by
  induction documents generalizing start lists before with
  | nil => exact ⟨lists, rfl, by simpa [postingsFrom] using holds⟩
  | cons document later induction =>
      obtain ⟨entered, appended, found⟩ :=
        appendTerms?_ofPostings (order start document) holds beyond
      have beyondAfter (field : Field) (term : String) :
          ∀ posting ∈ before field term ++ (document.posting? field term start).toList,
            posting.document < start + 1 := by
        intro posting member
        rcases List.mem_append.mp member with earlier | here
        · exact Nat.lt_succ_of_lt (beyond field term posting earlier)
        · obtain ⟨-, rfl⟩ := Document.posting?_eq_some_iff.mp (Option.mem_toList.mp here)
          exact Nat.lt_succ_self start
      obtain ⟨after, rest, foundAfter⟩ := induction (start + 1) found beyondAfter
      refine ⟨after, ?_, fun field term => ?_⟩
      · rw [appendDocuments?, List.zipIdx_cons, List.foldlM_cons]
        dsimp only
        rw [appended]
        exact rest
      · rw [foundAfter, postingsFrom_cons, List.append_assoc]

end ListTable

/-- The index is exactly its documents. The list of a term in a field has the documents with the term
there, all its offsets and their numbers, and an unknown term has the empty list. Appending the postings
in any order of the fields and terms of each document is never refused, and gives the same lists. -/
theorem Index.lists_of_documents (documents : List Document) (stopwords : List String)
    (order : DocumentId → (document : Document) → document.TermOrder) :
    let index := Index.ofDocuments documents stopwords
    (∀ field term, (index.invertedList field term).IsOf documents field term) ∧
      (∀ field term, (∀ document ∈ documents, term ∉ document.fields.get field) →
        index.invertedList field term = .empty field) ∧
      ∃ lists, ListTable.appendDocuments? order 0 documents ∅ = some lists ∧
        ∀ field term, lists.find field term = index.invertedList field term := by
  intro index
  refine ⟨Index.isOf_invertedList documents stopwords, fun field term unknown => ?_, ?_⟩
  · have nothing : postingsFrom field term 0 documents = [] := by
      refine List.eq_nil_iff_forall_not_mem.mpr fun posting member => ?_
      obtain ⟨document, here, present, -⟩ := mem_postingsFrom_iff.mp member
      exact unknown document (List.mem_of_getElem? here) present
    rw [Index.invertedList_ofDocuments, nothing]
    rfl
  · have empty : ∀ field term, (∅ : ListTable).find field term =
        .ofPostings field ((fun _ _ => []) field term) := by
      simp [ListTable.find, InvertedList.ofPostings]
    obtain ⟨lists, appended, found⟩ :=
      ListTable.appendDocuments?_eq_some order 0 documents empty (by simp)
    exact ⟨lists, appended, fun field term => by
      rw [found, Index.invertedList_ofDocuments, List.nil_append]⟩

end Retrieval
