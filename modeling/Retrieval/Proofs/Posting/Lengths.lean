import Mathlib.Algebra.BigOperators.Group.Finset.Basic
import Mathlib.Algebra.Order.BigOperators.Group.Finset
import Retrieval.Proofs.Posting.Collection
import Retrieval.Proofs.Scoring.ByDocument

/-!
# Frequencies and lengths

No term occurs in a field of a document more often than the field has tokens there, and the list of a
proximity operator has no more occurrences in a document than its first operand. Unions need not fit into
the field like this: an occurrence counts once for each operand that has it. The occurrences of a list
that fits into a field are no more than the tokens of the field in the collection.
-/

namespace Retrieval

namespace InvertedList

/-- In no document does the list have more occurrences than the given length. -/
def Fits (length : DocumentId → Nat) (list : InvertedList) : Prop :=
  ∀ posting ∈ list.postings, posting.frequency ≤ length posting.document

theorem Fits.frequencyAt_le {list : InvertedList} {length : DocumentId → Nat} (fits : list.Fits length)
    (document : DocumentId) : list.frequencyAt document ≤ length document := by
  rw [frequencyAt]
  cases found : list.postings.find? (·.document == document) with
  | none => exact Nat.zero_le _
  | some posting =>
      have same : posting.document = document := by simpa using List.find?_some found
      exact same ▸ fits posting (List.mem_of_find?_eq_some found)

end InvertedList

/-! ## The lists of an index -/

namespace ListTable

/-- A term occurs in a field of the collection as often as in that of all its documents. -/
theorem collectionFrequency_ofDocuments (documents : List Document) (field : Field) (term : String) :
    ((ofDocuments documents).find field term).collectionFrequency =
      (documents.map fun document => (document.fields.get field).count term).sum :=
  (Index.isOf_invertedList documents [] field term).collectionFrequency_eq

end ListTable

namespace Index

/-- The number of tokens in a field of a document; none if there is no such document. -/
def lengthAt (index : Index) (field : Field) (document : DocumentId) : Nat :=
  (index.documents[document]?).elim 0 fun document => (document.fields.get field).length

theorem fieldLength_eq {index : Index} (field : Field) {document : DocumentId}
    (bounded : document < index.documentCount) :
    index.fieldLength field document = .ok (index.lengthAt field document) := by
  have found : index.documents[document]? = some index.documents[document] :=
    Array.getElem?_eq_getElem bounded
  rw [fieldLength, Index.document, lengthAt, found]
  rfl

theorem lengthAt_ofDocuments (documents : List Document) (stopwords : List String) (field : Field)
    (document : DocumentId) :
    (Index.ofDocuments documents stopwords).lengthAt field document =
      (documents[document]?).elim 0 fun document => (document.fields.get field).length := by
  simp [lengthAt, Index.ofDocuments]

/-- No term has more occurrences in a document than the field has tokens. -/
theorem fits_invertedList (documents : List Document) (stopwords : List String) (field : Field)
    (term : String) :
    ((Index.ofDocuments documents stopwords).invertedList field term).Fits
      ((Index.ofDocuments documents stopwords).lengthAt field) := by
  intro posting member
  rw [invertedList_ofDocuments, InvertedList.ofPostings_postings, mem_postingsFrom_iff] at member
  obtain ⟨document, here, -, written⟩ := member
  have counted : posting.frequency = (document.fields.get field).count term := by
    rw [written]
    exact List.length_idxsOf
  rw [lengthAt_ofDocuments, here, counted]
  exact List.count_le_length

theorem tokens_foldl_add (documents : List Document) (field : Field) (totals : FieldTotals) :
    (documents.foldl (fun totals document => totals.add (document.fields.get field).length)
      totals).tokens =
        totals.tokens + (documents.map fun document => (document.fields.get field).length).sum := by
  induction documents generalizing totals with
  | nil => simp
  | cons document later induction =>
      have added : ∀ length, (totals.add length).tokens = totals.tokens + length := by
        intro length
        rw [FieldTotals.add]
        split
        · next none => simp [none]
        · rfl
      rw [List.foldl_cons, induction, added, List.map_cons, List.sum_cons, Nat.add_assoc]

theorem sum_range_getElem? {α : Type} (measure : α → Nat) (list : List α) :
    ∑ place ∈ Finset.range list.length, (list[place]?).elim 0 measure = (list.map measure).sum := by
  induction list with
  | nil => rfl
  | cons first later induction =>
      rw [List.length_cons, Finset.sum_range_succ', List.map_cons, List.sum_cons, ← induction,
        Nat.add_comm]
      simp

/-- The tokens of a field are those of all documents. -/
theorem tokenCount_ofDocuments (documents : List Document) (stopwords : List String)
    (field : Field) :
    (Index.ofDocuments documents stopwords).tokenCount field =
      ∑ document ∈ Finset.range documents.length,
        (Index.ofDocuments documents stopwords).lengthAt field document := by
  have totals_eq : (Index.ofDocuments documents stopwords).tokenCount field =
      (FieldTotals.ofDocuments documents field).tokens := by
    cases field <;> rfl
  simp only [totals_eq, FieldTotals.ofDocuments, tokens_foldl_add, lengthAt_ofDocuments,
    sum_range_getElem?, Nat.zero_add]

theorem length_le_tokenCount {documents : List Document} {document : Document}
    (among : document ∈ documents) (stopwords : List String) (field : Field) :
    (document.fields.get field).length ≤ (Index.ofDocuments documents stopwords).tokenCount field := by
  simp only [tokenCount_ofDocuments, lengthAt_ofDocuments, sum_range_getElem?]
  exact List.le_sum_of_mem (List.mem_map_of_mem among)

end Index

/-- A list that fits into a field has no more occurrences than the field has tokens. -/
theorem InvertedList.WellFormed.collectionFrequency_le {list : InvertedList} {documentCount : Nat}
    {length : DocumentId → Nat} (wellFormed : list.WellFormed documentCount)
    (fits : list.Fits length) :
    list.collectionFrequency ≤ ∑ document ∈ Finset.range documentCount, length document := by
  have distinct : (list.postings.map (·.document)).Nodup :=
    List.pairwise_map.mpr (wellFormed.ascending.imp Nat.ne_of_lt)
  have inRange : (list.postings.map (·.document)).toFinset ⊆ Finset.range documentCount := by
    intro document member
    obtain ⟨posting, present, rfl⟩ := List.mem_map.mp (List.mem_toFinset.mp member)
    exact Finset.mem_range.mpr (wellFormed.posted posting present).bounded
  calc
    list.collectionFrequency = (list.postings.map (·.frequency)).sum :=
      wellFormed.collectionFrequency_eq
    _ ≤ (list.postings.map fun posting => length posting.document).sum :=
      List.sum_le_sum fits
    _ = ((list.postings.map (·.document)).map length).sum := by rw [List.map_map]; rfl
    _ = ∑ document ∈ (list.postings.map (·.document)).toFinset, length document :=
      (List.sum_toFinset length distinct).symm
    _ ≤ ∑ document ∈ Finset.range documentCount, length document :=
      Finset.sum_le_sum_of_subset inRange

/-! ## Proximity -/

theorem length_chainEnds_le (distance : Nat) (anchors : List Nat) (others : List Occurrences) :
    (chainEnds distance anchors others).length ≤ anchors.length := by
  induction anchors generalizing others with
  | nil => simp [chainEnds]
  | cons anchor anchors induction =>
      rw [chainEnds.eq_def]
      dsimp only
      split
      · exact Nat.succ_le_succ (induction _)
      · split
        · exact Nat.zero_le _
        · exact Nat.le_succ_of_le (induction _)

/-- An ordered match takes a position of the first operand. -/
theorem length_nearPositions_le (distance : Nat) (first : List Nat) (others : List (List Nat)) :
    (nearPositions distance (first :: others)).length ≤ first.length :=
  length_chainEnds_le distance first _

theorem length_spanEnds_le (size rounds : Nat) (first : List Nat) (others : List (List Nat)) :
    (spanEnds size rounds (first :: others)).length ≤ first.length := by
  induction rounds generalizing first others with
  | zero => simp [spanEnds]
  | succ rounds induction =>
      cases first with
      | nil => simp [spanEnds]
      | cons position later =>
          have taken : ∀ others,
              (spanEnds size rounds (later :: others)).length ≤ later.length + 1 :=
            fun others => Nat.le_succ_of_le (induction later others)
          rw [spanEnds]
          split
          · simp
          · split
            · split
              · exact Nat.succ_le_succ (induction later _)
              · next heads _ _ _ left _ _ _ _ =>
                  generalize heads.idxOf left = place
                  cases place with
                  | zero => simpa using taken others
                  | succ place => exact induction (position :: later) (others.modify place List.tail)
            · simp

/-- An unordered match takes a position of the first operand. -/
theorem length_windowPositions_le (size : Nat) (first : List Nat) (others : List (List Nat)) :
    (windowPositions size (first :: others)).length ≤ first.length :=
  length_spanEnds_le size _ first others

/-! ## Lists without unions -/

namespace Query

variable {ω : Type}

mutual

/-- There is a union in the query. -/
def hasUnion : Query ω → Bool
  | .term .. => false
  | .apply operator operands _ => operator == .list .syn || anyHasUnion operands

/-- There is a union in one of the queries. -/
def anyHasUnion : List (Query ω) → Bool
  | [] => false
  | query :: later => query.hasUnion || anyHasUnion later

end

end Query

/-- The index has the lists of a collection, and they fit into their fields. -/
structure Index.Consistent (index : Index) : Prop where
  /-- All lists are well formed. -/
  wellFormed : index.WellFormed
  /-- No term has more occurrences in a document than the field has tokens. -/
  fits : ∀ field term, (index.invertedList field term).Fits (index.lengthAt field)
  /-- The tokens of a field are those of all documents. -/
  tokenCount_eq : ∀ field, index.tokenCount field =
    ∑ document ∈ Finset.range index.documentCount, index.lengthAt field document

theorem Index.ofDocuments_consistent (documents : List Document) (stopwords : List String) :
    (Index.ofDocuments documents stopwords).Consistent :=
  ⟨Index.ofDocuments_wellFormed documents stopwords, Index.fits_invertedList documents stopwords,
    Index.tokenCount_ofDocuments documents stopwords⟩

/-- The posting is one of the collection and fits into the field. -/
def Index.Admits (index : Index) (field : Field) (posting : Posting) : Prop :=
  posting.IsPosted index.documentCount ∧ posting.frequency ≤ index.lengthAt field posting.document

namespace Cursor

variable {ω : Type} {index : Index}

theorem fits_proximity {combine : List (List Nat) → List Nat}
    (short : ∀ first others, (combine (first :: others)).length ≤ first.length)
    {cursors : List (Cursor ω)} (reads : ∀ cursor ∈ cursors, cursor.Reads index.Admits) :
    ∀ posting ∈ (proximity combine cursors).1,
      posting.frequency ≤ index.lengthAt (fieldOf cursors) posting.document := by
  intro posting member
  obtain ⟨source, others, ⟨isPosted, fits⟩, same, -, written⟩ :=
    Reads.exists_of_mem_proximity reads member
  have frequency_eq : posting.frequency = (combine (source.positions :: others)).length := by
    rw [written]
    rfl
  calc
    posting.frequency ≤ source.positions.length := frequency_eq ▸ short source.positions others
    _ = source.frequency := isPosted.counts.symm
    _ ≤ index.lengthAt (fieldOf cursors) posting.document := same ▸ fits

theorem fits_materialize {operator : ListOperator} (noUnion : operator ≠ .syn)
    {operands : List (Cursor ω)} (reads : ∀ operand ∈ operands, operand.Reads index.Admits)
    (fits : ∀ operand ∈ operands, ∀ list, operand.invertedList? = some list →
      list.Fits (index.lengthAt operand.field)) :
    (materialize (fieldOf operands) operator operands).1.Fits
      (index.lengthAt (fieldOf operands)) := by
  unfold materialize
  split
  · exact absurd rfl noUnion
  · exact fun posting member => absurd member List.not_mem_nil
  · next only _ =>
      cases known : only.invertedList? with
      | none => exact fun posting member => absurd member List.not_mem_nil
      | some list => exact fits only List.mem_cons_self list known
  · intro posting member
    rw [InvertedList.ofPostings_postings] at member
    exact fits_proximity (length_nearPositions_le _) reads posting member
  · intro posting member
    rw [InvertedList.ofPostings_postings] at member
    exact fits_proximity (length_windowPositions_le _) reads posting member

/-- The cursor has a list that fits into its field, if it has one, and reads what fits. -/
structure Fitting (index : Index) (cursor : Cursor ω) : Prop where
  /-- What is ahead fits into the field. -/
  reads : cursor.Reads index.Admits
  /-- The whole list fits into the field. -/
  fits : ∀ list, cursor.invertedList? = some list → list.Fits (index.lengthAt cursor.field)

theorem Fitting.of_list {cursor : Cursor ω} {list : InvertedList} (isList : cursor.isList = true)
    (begins : cursor.reader? = some (.ofList list)) (wellFormed : list.WellFormed index.documentCount)
    (fits : list.Fits (index.lengthAt cursor.field)) : cursor.Fitting index where
  reads :=
    { ahead := by
        intro reader known posting member
        obtain rfl := Option.some.inj (begins.symm.trans known)
        exact ⟨wellFormed.posted posting member, fits posting member⟩
      idle := by simp [isList] }
  fits := by
    intro found known
    rw [invertedList?, begins] at known
    obtain rfl := Option.some.inj known
    exact fits

variable [Arithmetic ω]

mutual

theorem openOn_fitting (consistent : index.Consistent) :
    ∀ cursor : Cursor ω, cursor.query.hasUnion = false → (cursor.openOn index).Fitting index
  | .term text field _, _ => by
      rw [openOn]
      refine .of_list rfl rfl (consistent.wellFormed field text) ?_
      simpa [Cursor.field] using consistent.fits field text
  | .list operator operands weights reader, noUnion => by
      have wellFormed := openOn_wellFormed consistent.wellFormed (.list operator operands weights reader)
      rw [query, Query.hasUnion, Bool.or_eq_false_iff] at noUnion
      have notSyn : operator ≠ .syn := by
        rintro rfl
        simp at noUnion
      have opened := openEachOn_fitting consistent operands noUnion.2
      have fits := fits_materialize notSyn (fun operand member => (opened operand member).reads)
        (fun operand member => (opened operand member).fits)
      have field_eq : fieldOf (materialize (fieldOf (openEachOn index operands)) operator
          (openEachOn index operands)).2 = fieldOf (openEachOn index operands) := by
        rw [fieldOf_eq, queries_materialize, ← fieldOf_eq]
      rw [openOn] at wellFormed ⊢
      refine .of_list rfl rfl (wellFormed.invertedList? rfl) ?_
      rw [Cursor.field, field_eq]
      exact fits
  | .scoring _ operands _ _ _, _ => by
      rw [openOn]
      exact ⟨⟨by simp [reader?], by simp [current?]⟩, by simp [invertedList?, reader?]⟩

theorem openEachOn_fitting (consistent : index.Consistent) :
    ∀ cursors : List (Cursor ω), Query.anyHasUnion (queries cursors) = false →
      ∀ cursor ∈ openEachOn index cursors, cursor.Fitting index
  | [], _ => by simp [openEachOn]
  | cursor :: later, noUnion => by
      rw [queries, Query.anyHasUnion, Bool.or_eq_false_iff] at noUnion
      rw [openEachOn]
      exact List.forall_mem_cons.mpr ⟨openOn_fitting consistent cursor noUnion.1,
        openEachOn_fitting consistent later noUnion.2⟩

end

end Cursor

namespace Query

variable {ω : Type} [Arithmetic ω] {index : Index}

theorem listOn_wellFormed (wellFormed : index.WellFormed) (query : Query ω) :
    (query.listOn index).WellFormed index.documentCount := by
  rw [listOn]
  cases known : ((Cursor.ofQuery query).openOn index).invertedList? with
  | none => exact InvertedList.empty_wellFormed _ .body
  | some list => exact (Cursor.openOn_wellFormed wellFormed _).invertedList? known

/-- The list of a query fits into its field. -/
def Fits (index : Index) (query : Query ω) : Prop :=
  (query.listOn index).Fits (index.lengthAt query.field)

/-- Without unions every list fits into its field. -/
theorem fits_of_hasUnion_eq_false (consistent : index.Consistent) {query : Query ω}
    (noUnion : query.hasUnion = false) : query.Fits index := by
  rw [Fits, listOn]
  cases known : ((Cursor.ofQuery query).openOn index).invertedList? with
  | none => exact fun posting member => absurd member List.not_mem_nil
  | some list =>
      have fitting := Cursor.openOn_fitting consistent (Cursor.ofQuery query)
        (by rwa [Cursor.query_ofQuery])
      have fits := fitting.fits list known
      rwa [Cursor.field_eq, Cursor.query_openOn, Cursor.query_ofQuery] at fits

end Query

end Retrieval
