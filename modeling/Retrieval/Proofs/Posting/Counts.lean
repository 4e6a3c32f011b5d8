import Mathlib.Algebra.BigOperators.Group.Finset.Basic
import Retrieval.Proofs.Evaluation.Traversal
import Retrieval.Proofs.Posting.Lengths
import Retrieval.Proofs.Text.Distinct

/-!
# The counts of an index

An index counts the tokens of a field in several ways: as totals, by document, by term over the
collection, and by term in one document. All of them count the same tokens, those of the field over the
documents. The table of lists has an entry for each distinct one of them.
-/

namespace Retrieval

variable {documents : List Document} {document : Document} {number : DocumentId} {field : Field}
  {term : String}

/-- The tokens of a field over the documents. -/
def fieldTokens (documents : List Document) (field : Field) : List String :=
  documents.flatMap fun document => document.fields.get field

/-! ## The entries of the table -/

namespace ListTable

variable {lists : ListTable} {key : Field × String}

theorem mem_enterTokens {tokens : List String} :
    key ∈ lists.enterTokens number field tokens ↔ key ∈ lists ∨ field = key.1 ∧ key.2 ∈ tokens := by
  obtain ⟨other, term⟩ := key
  rw [enterTokens]
  generalize 0 = start
  induction tokens generalizing start with
  | nil => simp
  | cons token later induction =>
      rw [List.zipIdx_cons, List.foldr_cons]
      dsimp only
      rw [Std.HashMap.mem_insert, induction (start + 1), List.mem_cons, beq_iff_eq, Prod.mk.injEq]
      constructor
      · rintro (⟨same, rfl⟩ | before | ⟨same, among⟩)
        · exact .inr ⟨same, .inl rfl⟩
        · exact .inl before
        · exact .inr ⟨same, .inr among⟩
      · rintro (before | ⟨same, rfl | among⟩)
        · exact .inr (.inl before)
        · exact .inl ⟨same, rfl⟩
        · exact .inr (.inr ⟨same, among⟩)

theorem mem_enterDocument {fields : FieldTable (List String)} :
    key ∈ lists.enterDocument number fields ↔ key ∈ lists ∨ key.2 ∈ fields.get key.1 := by
  have entered (chosen : List Field) :
      key ∈ chosen.foldr (fun field lists => enterTokens number field (fields.get field) lists) lists ↔
        key ∈ lists ∨ key.1 ∈ chosen ∧ key.2 ∈ fields.get key.1 := by
    induction chosen with
    | nil => simp
    | cons field others induction =>
        rw [List.foldr_cons, mem_enterTokens, induction, List.mem_cons, or_assoc]
        refine or_congr_right ⟨?_, ?_⟩
        · rintro (⟨among, occurs⟩ | ⟨rfl, occurs⟩)
          · exact ⟨.inr among, occurs⟩
          · exact ⟨.inl rfl, occurs⟩
        · rintro ⟨rfl | among, occurs⟩
          · exact .inr ⟨rfl, occurs⟩
          · exact .inl ⟨among, occurs⟩
  have isField : key.1 ∈ Field.all := by cases key.1 <;> decide
  rw [enterDocument, entered, and_iff_right isField]

/-- The table has an entry for each token of each field, and no other ones. -/
theorem mem_ofDocuments : key ∈ ofDocuments documents ↔ key.2 ∈ fieldTokens documents key.1 := by
  rw [ofDocuments, fieldTokens]
  -- What number a document has does not matter for the keys.
  generalize 0 = start
  induction documents generalizing start with
  | nil => simp
  | cons document later induction =>
      rw [List.zipIdx_cons, List.foldr_cons, mem_enterDocument, induction, List.flatMap_cons,
        List.mem_append, or_comm]

end ListTable

namespace Index

variable {stopwords : List String}

/-- The entries of a field are counted. -/
theorem vocabularySize_eq_countP (index : Index) (field : Field) :
    index.vocabularySize field = index.lists.keys.countP fun key => key.1 = field := by
  have counted (keys : List (Field × String)) (size : Nat) :
      keys.foldl (fun size key => if key.1 = field then size + 1 else size) size =
        size + keys.countP fun key => key.1 = field := by
    induction keys generalizing size with
    | nil => rfl
    | cons key later induction =>
        rw [List.foldl_cons, induction, List.countP_cons]
        by_cases same : key.1 = field <;> simp [same, Nat.add_assoc, Nat.add_comm]
  have folded : index.vocabularySize field =
      index.lists.keys.foldl (fun size key => if key.1 = field then size + 1 else size) 0 :=
    Std.HashMap.fold_eq_foldl_keys
  rw [folded, counted, Nat.zero_add]

/-- The vocabulary of a field are the distinct tokens of the field. -/
theorem vocabularySize_ofDocuments (documents : List Document) (stopwords : List String)
    (field : Field) : (Index.ofDocuments documents stopwords).vocabularySize field =
      (fieldTokens documents field).toFinset.card := by
  let keys := (ListTable.ofDocuments documents).keys.filter fun key => key.1 = field
  -- Keys of one field differ in their terms.
  have nodup : (keys.map Prod.snd).Nodup := by
    refine List.Nodup.map_on ?_ (Std.HashMap.nodup_keys.filter _)
    intro left leftMember right rightMember same
    have ofLeft : left.1 = field := by simpa using (List.mem_filter.mp leftMember).2
    have ofRight : right.1 = field := by simpa using (List.mem_filter.mp rightMember).2
    exact Prod.ext (ofLeft.trans ofRight.symm) same
  have terms : (keys.map Prod.snd).toFinset = (fieldTokens documents field).toFinset := by
    ext term
    simp only [keys, List.mem_toFinset, List.mem_map, List.mem_filter, Std.HashMap.mem_keys,
      ListTable.mem_ofDocuments, decide_eq_true_eq]
    constructor
    · rintro ⟨key, ⟨occurs, rfl⟩, rfl⟩
      exact occurs
    · exact fun occurs => ⟨(field, term), ⟨occurs, rfl⟩, rfl⟩
  calc
    (Index.ofDocuments documents stopwords).vocabularySize field = keys.length := by
      rw [vocabularySize_eq_countP, List.countP_eq_length_filter]
      rfl
    _ = (keys.map Prod.snd).toFinset.card := by
      rw [List.toFinset_card_of_nodup nodup, List.length_map]
    _ = (fieldTokens documents field).toFinset.card := by rw [terms]

/-! ## Totals -/

theorem tokenCount_eq_length (documents : List Document) (stopwords : List String) (field : Field) :
    (Index.ofDocuments documents stopwords).tokenCount field =
      (fieldTokens documents field).length := by
  simp only [tokenCount_ofDocuments, lengthAt_ofDocuments, sum_range_getElem?, fieldTokens,
    List.length_flatMap]

theorem collectionFrequency_eq_count (documents : List Document) (stopwords : List String)
    (field : Field) (term : String) :
    ((Index.ofDocuments documents stopwords).invertedList field term).collectionFrequency =
      (fieldTokens documents field).count term := by
  rw [fieldTokens, List.count_flatMap]
  exact ListTable.collectionFrequency_ofDocuments documents field term

theorem documents_foldl_add (documents : List Document) (field : Field) (totals : FieldTotals) :
    (documents.foldl (fun totals document => totals.add (document.fields.get field).length)
      totals).documents =
        totals.documents + documents.countP fun document => 0 < (document.fields.get field).length := by
  induction documents generalizing totals with
  | nil => rfl
  | cons document later induction =>
      rw [List.foldl_cons, induction, List.countP_cons, FieldTotals.add]
      by_cases none : (document.fields.get field).length = 0
      · simp [none]
      · simp [none, Nat.pos_of_ne_zero none, Nat.add_assoc, Nat.add_comm 1]

/-- The documents of a field are those in which it is not empty. -/
theorem fieldCount_ofDocuments (documents : List Document) (stopwords : List String)
    (field : Field) : (Index.ofDocuments documents stopwords).fieldCount field =
      documents.countP fun document => 0 < (document.fields.get field).length := by
  have totals_eq : (Index.ofDocuments documents stopwords).fieldCount field =
      (FieldTotals.ofDocuments documents field).documents := by
    cases field <;> rfl
  rw [totals_eq, FieldTotals.ofDocuments, documents_foldl_add, Nat.zero_add]

/-- The lengths of a field are found for all documents. -/
theorem mapM_fieldLength (documents : List Document) (stopwords : List String) (field : Field) :
    (List.range documents.length).mapM ((Index.ofDocuments documents stopwords).fieldLength field) =
      .ok (documents.map fun document => (document.fields.get field).length) := by
  have lengths : (List.range documents.length).map
      ((Index.ofDocuments documents stopwords).lengthAt field) =
        documents.map fun document => (document.fields.get field).length := by
    refine List.ext_getElem (by simp) fun place bounded _ => ?_
    have inside : place < documents.length := by simpa using bounded
    simp [lengthAt_ofDocuments, List.getElem?_eq_getElem inside]
  rw [← lengths, mapM_eq_ok_iff, List.forall₂_map_right_iff, List.forall₂_same]
  intro place member
  exact fieldLength_eq field (by simpa [documentCount, ofDocuments] using member)

/-! ## The terms of a document -/

theorem mem_postings_of_mem (stopwords : List String) (here : documents[number]? = some document)
    (occurs : term ∈ document.fields.get field) :
    ∃ posting ∈ ((Index.ofDocuments documents stopwords).invertedList field term).postings,
      posting.document = number ∧ posting.frequency = (document.fields.get field).count term := by
  refine ⟨.ofPositions number ((document.fields.get field).idxsOf term), ?_, rfl, List.length_idxsOf⟩
  rw [invertedList_ofDocuments, InvertedList.ofPostings_postings]
  exact mem_postingsFrom_iff.mpr ⟨document, here, occurs, rfl⟩

theorem count_le_collectionFrequency (stopwords : List String)
    (here : documents[number]? = some document) :
    (document.fields.get field).count term ≤
      ((Index.ofDocuments documents stopwords).invertedList field term).collectionFrequency := by
  rw [invertedList, Index.ofDocuments, ListTable.collectionFrequency_ofDocuments]
  exact List.le_sum_of_mem (List.mem_map.mpr ⟨document, List.mem_of_getElem? here, rfl⟩)

end Index

/-- Summed over the distinct words, the counts of a list of words make up its length. -/
theorem sum_count_firstOccurrences (words : List String) :
    ((firstOccurrences words).map fun word => words.count word).sum = words.length := by
  have same : (firstOccurrences words).toFinset = words.toFinset := by
    ext word
    rw [List.mem_toFinset, List.mem_toFinset, mem_firstOccurrences]
  rw [← List.sum_toFinset _ (nodup_firstOccurrences words), same, List.sum_toFinset_count_eq_length]

/-- The terms of a field of a document, with what the lists of the index say of them. -/
structure TermVector.Agrees (index : Index) (field : Field) (number : DocumentId)
    (tokens : List String) (vector : TermVector) : Prop where
  /-- The terms are those of the document. -/
  document_eq : vector.document = number
  /-- They are those of the field. -/
  field_eq : vector.field = field
  /-- Each token comes once, where it occurs first. -/
  stems_eq : vector.entries.map (·.stem) = tokens.eraseDups
  /-- The posting of the document has the frequency of the term. -/
  posted : ∀ entry ∈ vector.entries, ∃ posting ∈ (index.invertedList field entry.stem).postings,
    posting.document = number ∧ posting.frequency = entry.frequency
  /-- The list of the term has its collection frequency. -/
  collectionFrequency_eq : ∀ entry ∈ vector.entries,
    entry.collectionFrequency = (index.invertedList field entry.stem).collectionFrequency
  /-- A term occurs in the document, there no more often than in the collection, and there no more often
  than there are tokens. -/
  bounded : ∀ entry ∈ vector.entries, 1 ≤ entry.frequency ∧
    entry.frequency ≤ entry.collectionFrequency ∧
    entry.collectionFrequency ≤ index.tokenCount field
  /-- The frequencies make up the length. -/
  sum_eq : (vector.entries.map (·.frequency)).sum = vector.length
  /-- The length is that of the field. -/
  length_eq : index.fieldLength field number = .ok vector.length

namespace Index

theorem exists_termVector_agrees (stopwords : List String)
    (here : documents[number]? = some document) (field : Field) :
    let index := Index.ofDocuments documents stopwords
    ∃ vector, index.termVector field number = .ok vector ∧
      vector.Agrees index field number (document.fields.get field) := by
  intro index
  have found : index.document number = .ok document := by
    simp [index, Index.document, ofDocuments, here]
  let tokens := document.fields.get field
  let entry (stem : String) : TermEntry :=
    ⟨stem, tokens.count stem, (index.invertedList field stem).collectionFrequency⟩
  have read : index.termVector field number =
      .ok ⟨number, field, tokens.length, (firstOccurrences tokens).map entry⟩ := by
    simp only [termVector, found, Except.map, getD_tally]
    rfl
  have occurs : ∀ stem ∈ firstOccurrences tokens, stem ∈ tokens := fun _ => mem_firstOccurrences.mp
  refine ⟨_, read, ?_⟩
  exact
    { document_eq := rfl
      field_eq := rfl
      stems_eq := by
        rw [List.map_map, ← firstOccurrences_eq_eraseDups]
        exact List.map_id _
      posted := List.forall_mem_map.mpr fun stem member =>
        mem_postings_of_mem stopwords here (occurs stem member)
      collectionFrequency_eq := List.forall_mem_map.mpr fun _ _ => rfl
      bounded := by
        refine List.forall_mem_map.mpr fun stem member => ⟨?_, ?_, ?_⟩
        · exact List.count_pos_iff.mpr (occurs stem member)
        · exact count_le_collectionFrequency stopwords here
        · rw [tokenCount_eq_length]
          exact (collectionFrequency_eq_count documents stopwords field stem).trans_le
            List.count_le_length
      sum_eq := by
        rw [List.map_map]
        exact sum_count_firstOccurrences tokens
      length_eq := by
        rw [fieldLength, found]
        rfl }

/-- Whatever an index counts of a field, it counts the same tokens: summed over the distinct terms of the
field, the collection frequencies make up the total, as the lengths of the field do over the documents; the
documents of the field are those in which it is not empty, and its vocabulary are its distinct terms. The
terms of each document agree with the lists. -/
theorem counts_agree (documents : List Document) (stopwords : List String) (field : Field) :
    let index := Index.ofDocuments documents stopwords
    let terms := (fieldTokens documents field).toFinset
    ∑ term ∈ terms, (index.invertedList field term).collectionFrequency = index.tokenCount field ∧
      (∃ lengths, (List.range index.documentCount).mapM (index.fieldLength field) = .ok lengths ∧
        lengths.sum = index.tokenCount field ∧
        lengths.countP (0 < ·) = index.fieldCount field) ∧
      index.vocabularySize field = terms.card ∧
      ∀ number document, documents[number]? = some document →
        ∃ vector, index.termVector field number = .ok vector ∧
          vector.Agrees index field number (document.fields.get field) := by
  intro index terms
  have overTerms : ∑ term ∈ terms, (index.invertedList field term).collectionFrequency =
      index.tokenCount field := by
    calc
      ∑ term ∈ terms, (index.invertedList field term).collectionFrequency =
          ∑ term ∈ terms, (fieldTokens documents field).count term :=
        Finset.sum_congr rfl fun term _ =>
          collectionFrequency_eq_count documents stopwords field term
      _ = (fieldTokens documents field).length := List.sum_toFinset_count_eq_length _
      _ = index.tokenCount field := (tokenCount_eq_length documents stopwords field).symm
  have overDocuments : (documents.map fun document => (document.fields.get field).length).sum =
      index.tokenCount field := by
    rw [tokenCount_eq_length, fieldTokens, List.length_flatMap]
  have nonempty : (documents.map fun document => (document.fields.get field).length).countP (0 < ·) =
      index.fieldCount field := by
    rw [fieldCount_ofDocuments, List.countP_map]
    rfl
  exact ⟨overTerms, ⟨_, mapM_fieldLength documents stopwords field, overDocuments, nonempty⟩,
    vocabularySize_ofDocuments documents stopwords field,
    fun number document here => exists_termVector_agrees stopwords here field⟩

end Index

end Retrieval
