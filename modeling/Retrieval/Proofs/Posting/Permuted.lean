import Retrieval.Proofs.Posting.Collection
import Retrieval.Proofs.Posting.Spans
import Retrieval.Proofs.Posting.Union

/-!
# Unordered matches in any order

Which of several leftmost positions an unordered match passes first is decided by the order of its
operands. It makes no difference where they lie too far from the rightmost one: none of them belongs to a
span then, and all are passed before anything else happens. So the rounds can be compared at the points
at which everything up to the leftmost position has been passed. Only where all operands stand on one
position can the one that moves on first form a span with the others that stay.
-/

namespace Retrieval

/-- No span with the position `bound` is among the rows. Either one row has nothing near it, or all that
lies behind it lies too far behind. -/
def Barred (size bound : Nat) (rows : List (List Nat)) : Prop :=
  (∃ positions ∈ rows, ∀ position ∈ positions, bound < position ∧ bound + size ≤ position) ∨
    ∀ positions ∈ rows, ∀ position ∈ positions, position ≤ bound ∨ bound + size ≤ position

/-- A position that all rows share has nothing near behind it. -/
def Cleared (size : Nat) (rows : List (List Nat)) : Prop :=
  ∀ shared, (∀ positions ∈ rows, shared ∈ positions) →
    ∀ positions ∈ rows, ∀ position ∈ positions, position ≤ shared ∨ shared + size ≤ position

variable {size bound left right other : Nat} {rows others : List (List Nat)}
  {heads otherHeads ends otherEnds : List Nat}

theorem Barred.mono (barred : Barred size bound rows)
    (within : List.Forall₂ (· ⊆ ·) others rows) : Barred size bound others := by
  rcases barred with ⟨positions, member, far⟩ | far
  · obtain ⟨fewer, among, contained⟩ := exists_of_mem_forall₂ within.flip member
    exact .inl ⟨fewer, among, fun position inside => far position (contained inside)⟩
  · refine .inr fun fewer among position inside => ?_
    obtain ⟨positions, member, contained⟩ := exists_of_mem_forall₂ within among
    exact far positions member position (contained inside)

theorem Barred.of_perm (barred : Barred size bound rows) (same : others.Perm rows) :
    Barred size bound others := by
  simpa only [Barred, same.mem_iff] using barred

theorem Cleared.mono (cleared : Cleared size rows)
    (within : List.Forall₂ (· ⊆ ·) others rows) : Cleared size others := by
  intro shared inAll fewer among position inside
  obtain ⟨positions, member, contained⟩ := exists_of_mem_forall₂ within among
  refine cleared shared (fun _ memberLarger => ?_) positions member position (contained inside)
  obtain ⟨fewer, among, contained⟩ := exists_of_mem_forall₂ within.flip memberLarger
  exact contained (inAll fewer among)

/-- Passes the positions of all rows up to a given one. -/
def passTo (bound : Nat) (rows : List (List Nat)) : List (List Nat) :=
  rows.map (List.dropWhile (· ≤ bound))

theorem passTo_within (bound : Nat) (rows : List (List Nat)) :
    List.Forall₂ (· ⊆ ·) (passTo bound rows) rows :=
  List.forall₂_map_left_iff.mpr
    (List.forall₂_same.mpr fun _ _ => (List.dropWhile_suffix _).subset)

theorem passTo_perm (bound : Nat) (same : others.Perm rows) :
    (passTo bound others).Perm (passTo bound rows) :=
  same.map _

theorem passTo_sorted (bound : Nat) (sorted : ∀ positions ∈ rows, positions.Pairwise (· ≤ ·)) :
    ∀ positions ∈ passTo bound rows, positions.Pairwise (· ≤ ·) :=
  List.forall_mem_map.mpr fun positions member =>
    (sorted positions member).sublist (List.dropWhile_suffix _).sublist

namespace Fronts

variable (fronts : Fronts rows heads left right)

include fronts

/-- Rows with next positions have not been read to their end. -/
theorem not_exhausted (same : others.Perm rows) : ¬(others = [] ∨ [] ∈ others) := by
  rintro (rfl | exhausted)
  · obtain ⟨rest, member⟩ := fronts.exists_left
    simpa using same.mem_iff.mpr member
  · obtain ⟨head, rest, impossible, -⟩ := fronts.exists_eq_cons (same.mem_iff.mp exhausted)
    simp at impossible

theorem extends_of_perm {otherLeft otherRight : Nat} (same : others.Perm rows)
    (otherFronts : Fronts others otherHeads otherLeft otherRight) :
    otherLeft ≤ left ∧ right ≤ otherRight := by
  obtain ⟨_, leftMember⟩ := fronts.exists_left
  obtain ⟨_, rightMember⟩ := fronts.exists_right
  obtain ⟨head, _, isHead, low, -⟩ := otherFronts.exists_eq_cons (same.mem_iff.mpr leftMember)
  obtain ⟨last, _, isLast, -, high⟩ := otherFronts.exists_eq_cons (same.mem_iff.mpr rightMember)
  exact ⟨(List.cons.inj isHead).1 ▸ low, (List.cons.inj isLast).1 ▸ high⟩

/-- The order of the rows does not matter for how far their next positions extend. -/
theorem eq_of_perm {otherLeft otherRight : Nat} (same : others.Perm rows)
    (otherFronts : Fronts others otherHeads otherLeft otherRight) :
    otherLeft = left ∧ otherRight = right := by
  have outer := fronts.extends_of_perm same otherFronts
  have inner := otherFronts.extends_of_perm same.symm fronts
  exact ⟨Nat.le_antisymm outer.1 inner.1, Nat.le_antisymm inner.2 outer.2⟩

theorem left_le (sorted : ∀ positions ∈ rows, positions.Pairwise (· ≤ ·)) :
    ∀ positions ∈ rows, ∀ position ∈ positions, left ≤ position := by
  intro positions member position inside
  obtain ⟨head, rest, rfl, low, -⟩ := fronts.exists_eq_cons member
  exact low.trans ((sorted _ member).rel_head inside)

/-- Where the next positions lie too far apart, or all on one place, the leftmost is barred. -/
theorem barred (sorted : ∀ positions ∈ rows, positions.Pairwise (· ≤ ·)) (cleared : Cleared size rows)
    (wide : left = right ∨ size ≤ right - left) : Barred size left rows := by
  rcases eq_or_lt_of_le fronts.left_le_right with same | apart
  · refine .inr (cleared left fun positions member => ?_)
    obtain ⟨head, rest, rfl, low, high⟩ := fronts.exists_eq_cons member
    exact Nat.le_antisymm low (same ▸ high) ▸ List.mem_cons_self
  · have far : size ≤ right - left := wide.resolve_left (Nat.ne_of_lt apart)
    obtain ⟨rest, member⟩ := fronts.exists_right
    refine .inl ⟨_, member, fun position inside => ?_⟩
    have behind : right ≤ position := (sorted _ member).rel_head inside
    omega

/-- Positions that have been passed are not passed again. -/
theorem passTo_eq (beyond : bound < left) : passTo bound rows = rows := by
  refine (List.map_congr_left fun positions member => ?_).trans (List.map_id rows)
  obtain ⟨head, rest, rfl, low, -⟩ := fronts.exists_eq_cons member
  exact List.dropWhile_cons_of_neg (by simpa using Nat.lt_of_lt_of_le beyond low)

/-- Passing the leftmost positions leaves fewer. -/
theorem length_passTo_lt : (passTo left rows).flatten.length < rows.flatten.length := by
  rw [List.length_flatten, List.length_flatten, passTo, List.map_map]
  obtain ⟨rest, member⟩ := fronts.exists_left
  refine List.sum_lt_sum _ _ (fun positions _ => (List.dropWhile_suffix _).length_le)
    ⟨_, member, ?_⟩
  have shorter := (List.dropWhile_suffix (l := rest) (· ≤ left)).length_le
  simpa using Nat.lt_succ_of_le shorter

end Fronts

/-- Where the leftmost position is barred, all that is up to it may be passed at once. -/
theorem spans_passTo (spans : Spans size rows ends) (barred : Barred size bound rows)
    (least : ∀ positions ∈ rows, ∀ position ∈ positions, bound ≤ position) :
    Spans size (passTo bound rows) ends := by
  induction spans with
  | ended exhausted =>
      refine .ended (exhausted.imp ?_ fun member => ?_)
      · rintro rfl
        rfl
      · exact List.mem_map.mpr ⟨[], member, rfl⟩
  | @found rows heads ends left right fronts apart near later _ =>
      have beyond : bound < left := by
        obtain ⟨leftRest, leftMember⟩ := fronts.exists_left
        refine lt_of_le_of_ne (least _ leftMember left List.mem_cons_self) ?_
        rintro rfl
        rcases barred with ⟨positions, member, far⟩ | far
        · obtain ⟨head, rest, rfl, -, high⟩ := fronts.exists_eq_cons member
          have := (far head List.mem_cons_self).2
          omega
        · obtain ⟨rest, member⟩ := fronts.exists_right
          have := far _ member right List.mem_cons_self
          omega
      rw [fronts.passTo_eq beyond]
      exact .found fronts apart near later
  | @passed before after rest heads ends left right fronts wide later induction =>
      rcases eq_or_lt_of_le (least _ (List.mem_append_right _ List.mem_cons_self) left
        List.mem_cons_self) with rfl | beyond
      · have within := passed_within before after bound rest
        have shorter := induction (barred.mono within) fun fewer among position inside => by
          obtain ⟨positions, member, contained⟩ := exists_of_mem_forall₂ within among
          exact least positions member position (contained inside)
        simpa [passTo] using shorter
      · rw [fronts.passTo_eq beyond]
        exact .passed fronts wide later

/-- Rows in another order have the same matches. Both runs are compared where they find a match and where
they have passed everything up to the leftmost position. -/
theorem Spans.eq_of_perm (spans : Spans size rows ends) (otherSpans : Spans size others otherEnds)
    (same : others.Perm rows) (sorted : ∀ positions ∈ rows, positions.Pairwise (· ≤ ·))
    (cleared : Cleared size rows) : otherEnds = ends := by
  induction total : rows.flatten.length using Nat.strong_induction_on
    generalizing rows others ends otherEnds with
  | _ total induction =>
  subst total
  -- The runs are kept whole beside their first rounds, since a leftmost position that is passed takes
  -- all others like it along.
  have whole := spans
  have otherWhole := otherSpans
  cases spans with
  | ended exhausted =>
      cases otherSpans with
      | ended => rfl
      | found otherFronts => exact absurd exhausted (otherFronts.not_exhausted same.symm)
      | passed otherFronts => exact absurd exhausted (otherFronts.not_exhausted same.symm)
  | @found _ _ ends left right fronts apart near later =>
      cases otherSpans with
      | ended exhausted => exact absurd exhausted (fronts.not_exhausted same)
      | found otherFronts _ _ otherLater =>
          obtain ⟨rfl, rfl⟩ := fronts.eq_of_perm same otherFronts
          rw [induction _ fronts.length_tails_lt later otherLater (same.map List.tail)
            (sorted_tails sorted) (cleared.mono (tails_within rows)) rfl]
      | passed otherFronts wide =>
          obtain ⟨rfl, rfl⟩ := fronts.eq_of_perm same otherFronts
          omega
  | passed fronts wide =>
      cases otherSpans with
      | ended exhausted => exact absurd exhausted (fronts.not_exhausted same)
      | found otherFronts apart near =>
          obtain ⟨rfl, rfl⟩ := fronts.eq_of_perm same otherFronts
          omega
      | passed otherFronts =>
          obtain ⟨rfl, rfl⟩ := fronts.eq_of_perm same otherFronts
          have barred := fronts.barred sorted cleared wide
          have least := fronts.left_le sorted
          have further := spans_passTo whole barred least
          have otherFurther := spans_passTo otherWhole (barred.of_perm same)
            fun positions member => least positions (same.mem_iff.mp member)
          exact induction _ fronts.length_passTo_lt further otherFurther
            (passTo_perm _ same) (passTo_sorted _ sorted)
            (cleared.mono (passTo_within _ _)) rfl

/-- All rows are the same, or a position that all of them share has nothing near behind it. -/
def Settled (size : Nat) (rows : List (List Nat)) : Prop :=
  (∀ positions ∈ rows, ∀ others ∈ rows, positions = others) ∨ Cleared size rows

theorem windowPositions_perm (same : others.Perm rows)
    (sorted : ∀ positions ∈ rows, positions.Pairwise (· ≤ ·)) (settled : Settled size rows) :
    windowPositions size others = windowPositions size rows := by
  rcases settled with equal | cleared
  · cases rows with
    | nil => rw [same.eq_nil]
    | cons first rest =>
        have constant : first :: rest = List.replicate (rest.length + 1) first :=
          List.eq_replicate_of_mem fun positions member =>
            equal positions member first List.mem_cons_self
        rw [constant] at same ⊢
        rw [List.perm_replicate.mp same]
  · exact (spans_windowPositions size rows).eq_of_perm (spans_windowPositions size others) same sorted
      cleared

/-! ## Lists in any order -/

namespace Cursor

open InvertedList

variable {ω : Type} {lists : List InvertedList} {cursors moved : List (Cursor ω)}

theorem ascending_of_read (ascending : ∀ list ∈ lists, list.Ascending)
    (read : List.Forall₂ (fun list cursor => cursor.reader? = some (.ofList list)) lists cursors) :
    ∀ cursor ∈ cursors, ∀ list, cursor.invertedList? = some list → list.Ascending := by
  intro cursor among list known
  obtain ⟨found, member, reads⟩ := exists_of_mem_forall₂ read.flip among
  rw [invertedList?, reads] at known
  exact Option.some.inj known ▸ ascending found member

/-- The order of the operands of an unordered match does not matter where all documents are settled. -/
theorem materialize_window_perm (field other : Field) (size : Nat)
    (ascending : ∀ list ∈ lists, list.Ascending)
    (sorted : ∀ list ∈ lists, ∀ posting ∈ list.postings, posting.positions.Pairwise (· ≤ ·))
    (settled : ∀ document, Settled size (rowsAt document lists))
    (read : List.Forall₂ (fun list cursor => cursor.reader? = some (.ofList list)) lists cursors)
    (permuted : moved.Perm cursors) :
    (materialize other (.window size) moved).1.postings =
      (materialize field (.window size) cursors).1.postings := by
  obtain ⟨others, otherRead, same⟩ := List.perm_comp_forall₂ permuted read.flip
  replace otherRead := otherRead.flip
  have otherAscending : ∀ list ∈ others, list.Ascending :=
    fun list member => ascending list (same.mem_iff.mp member)
  match lists, others, same.length_eq with
  | [], [], _ =>
      obtain rfl := List.forall₂_nil_left_iff.mp read
      obtain rfl := List.forall₂_nil_left_iff.mp otherRead
      rfl
  | [_], [_], _ =>
      obtain rfl := List.singleton_perm_singleton.mp same
      obtain ⟨cursor, _, known, ended, rfl⟩ := List.forall₂_cons_left_iff.mp read
      obtain rfl := List.forall₂_nil_left_iff.mp ended
      obtain rfl := List.perm_singleton.mp permuted
      simp [materialize, invertedList?, known]
  | first :: second :: later, otherFirst :: otherSecond :: otherLater, _ =>
      have combines := combines_materialize_window field size ascending read
      have otherCombines := combines_materialize_window other size otherAscending otherRead
      refine (materialize_ascending other _ (ascending_of_read otherAscending otherRead)).postings_eq
        (materialize_ascending field _ (ascending_of_read ascending read)) fun posting => ?_
      have rows_same : (rowsAt posting.document (otherFirst :: otherSecond :: otherLater)).Perm
          (rowsAt posting.document (first :: second :: later)) := same.map _
      rw [combines posting, otherCombines posting,
        windowPositions_perm rows_same (rowsAt_pairwise sorted _) (settled _)]
      simp only [same.mem_iff]

end Cursor

/-! ## Queries in any order -/

/-- The positions in a document at which the list of a term has it are those of the term there. -/
theorem InvertedList.IsOf.exists_of_mem_positionsAt {documents : List Document} {field : Field}
    {term : String} {list : InvertedList} (isOf : list.IsOf documents field term)
    {document : DocumentId} {position : Nat} (member : position ∈ list.positionsAt document) :
    ∃ found, documents[document]? = some found ∧ (found.fields.get field)[position]? = some term := by
  obtain ⟨posting, among, rfl⟩ := mem_documents.mp (mem_documents_of_mem_positionsAt member)
  obtain ⟨found, here, -⟩ := (isOf.mem_documents_iff posting.document).mp
    (mem_documents.mpr ⟨posting, among, rfl⟩)
  rw [isOf.ascending.positionsAt_eq among] at member
  exact ⟨found, here, ((isOf.positions posting among found here).2 position).mp member⟩

/-- Terms of one field are settled: unless they are all the same, they share no position. -/
theorem Index.settled_terms (documents : List Document) (stopwords : List String) (size : Nat)
    (field : Field) (terms : List String) (document : DocumentId) :
    Settled size (InvertedList.rowsAt document
      (terms.map ((Index.ofDocuments documents stopwords).invertedList field))) := by
  have isOf := Index.isOf_invertedList documents stopwords field
  by_cases same : ∀ term ∈ terms, ∀ other ∈ terms, term = other
  · refine .inl (List.forall_mem_map.mpr (List.forall_mem_map.mpr fun term member => ?_))
    refine List.forall_mem_map.mpr (List.forall_mem_map.mpr fun other memberOther => ?_)
    rw [same term member other memberOther]
  · push Not at same
    obtain ⟨term, member, other, memberOther, differ⟩ := same
    refine .inr fun position shared => absurd ?_ differ
    have row {term : String} (member : term ∈ terms) :=
      shared _ (List.mem_map_of_mem (List.mem_map_of_mem member))
    obtain ⟨found, here, occurs⟩ := (isOf term).exists_of_mem_positionsAt (row member)
    obtain ⟨again, there, occursThere⟩ := (isOf other).exists_of_mem_positionsAt (row memberOther)
    obtain rfl := Option.some.inj (here.symm.trans there)
    exact Option.some.inj (occurs.symm.trans occursThere)

namespace Query

variable {ω : Type}

/-- A term, or a synonym of operands that have lists. -/
def isWord : Query ω → Bool
  | .term .. => true
  | .apply (.list .syn) operands _ => operands.all isList
  | _ => false

theorem isList_of_isWord {query : Query ω} (isWord : query.isWord = true) : query.isList = true := by
  unfold Query.isWord at isWord
  split at isWord
  · rfl
  · rfl
  · simp at isWord

variable [Arithmetic ω]

theorem listsOn_ascending {index : Index} (ascending : index.Ascending) (queries : List (Query ω)) :
    ∀ list ∈ queries.map (listOn index), list.Ascending :=
  List.forall_mem_map.mpr fun query _ => listOn_ascending ascending query

/-- The positions of a word ascend in every document. -/
theorem positions_listOn_of_isWord (documents : List Document) (stopwords : List String)
    {query : Query ω} (isWord : query.isWord = true) :
    ∀ posting ∈ (query.listOn (.ofDocuments documents stopwords)).postings,
      posting.positions.Pairwise (· ≤ ·) := by
  intro posting member
  unfold Query.isWord at isWord
  split at isWord
  · next text field =>
      rw [listOn_term] at member
      have isOf := Index.isOf_invertedList documents stopwords field text
      obtain ⟨document, here, -⟩ := (isOf.mem_documents_iff posting.document).mp
        (InvertedList.mem_documents.mpr ⟨posting, member, rfl⟩)
      exact (isOf.positions posting member document here).1.imp Nat.le_of_lt
  · next operands weights =>
      rw [listOn_list] at member
      have written := (Cursor.mem_postings_materialize_syn_iff _
        (listsOn_ascending (Index.ofDocuments_ascending documents stopwords) operands)
        (readers_openEachOn _ (by simpa using isWord)) posting).mp member
      rw [written.2]
      exact InvertedList.unitedPositions_pairwise _ _
  · simp at isWord

/-- An unordered match of two or more operands combines their lists. -/
theorem combines_window {index : Index} (ascending : index.Ascending) (size : Nat)
    (first second : Query ω) (others : List (Query ω)) (weights : List ω)
    (areLists : ∀ operand ∈ first :: second :: others, operand.isList = true) :
    (listOn index (.apply (.list (.window size)) (first :: second :: others) weights)).Combines
      (windowPositions size) ((first :: second :: others).map (listOn index)) := by
  rw [listOn_list]
  exact Cursor.combines_materialize_window _ size
    (listsOn_ascending ascending (first :: second :: others)) (readers_openEachOn index areLists)

/-- A synonym has the positions of all its operands. -/
theorem positionsAt_listOn_syn {index : Index} (ascending : index.Ascending)
    {operands : List (Query ω)} (areLists : ∀ operand ∈ operands, operand.isList = true)
    (weights : List ω) (document : DocumentId) :
    (listOn index (.apply (.list .syn) operands weights)).positionsAt document =
      InvertedList.unitedPositions document (operands.map (listOn index)) := by
  rw [listOn_list]
  exact Cursor.positionsAt_materialize_syn _ (listsOn_ascending ascending operands)
    (readers_openEachOn index areLists) document

/-- The order of the words of an unordered match does not matter in a collection, unless a document has a
position that all words share and some word another position near behind it. -/
theorem postings_window_perm (documents : List Document) (stopwords : List String) (size : Nat)
    {operands permuted : List (Query ω)} (words : ∀ operand ∈ operands, operand.isWord = true)
    (same : permuted.Perm operands)
    (settled : ∀ document, Settled size (InvertedList.rowsAt document
      (operands.map (listOn (.ofDocuments documents stopwords)))))
    (weights otherWeights : List ω) :
    (listOn (.ofDocuments documents stopwords)
        (.apply (.list (.window size)) permuted otherWeights)).postings =
      (listOn (.ofDocuments documents stopwords)
        (.apply (.list (.window size)) operands weights)).postings := by
  rw [listOn_list, listOn_list]
  refine Cursor.materialize_window_perm _ _ size
    (listsOn_ascending (Index.ofDocuments_ascending documents stopwords) operands) ?_ settled
    (readers_openEachOn _ fun operand member => isList_of_isWord (words operand member)) ?_
  · exact List.forall_mem_map.mpr fun operand member =>
      positions_listOn_of_isWord documents stopwords (words operand member)
  · rw [openEachOn_ofQueries, openEachOn_ofQueries]
    exact same.map _

/-- The words of a phrase share no position, so their order does not matter. -/
theorem postings_window_perm_phrase :
    let documents : List Document := [⟨"first", ⟨["new", "york", "new"], [], [], [], []⟩⟩]
    let word (text : String) : Query Float := .term text .body
    (listOn (.ofDocuments documents [])
        (.apply (.list (.window 2)) [word "york", word "new"] [1, 1])).postings =
      (listOn (.ofDocuments documents [])
        (.apply (.list (.window 2)) [word "new", word "york"] [1, 1])).postings := by
  intro documents word
  refine postings_window_perm documents [] 2 (by simp [word, isWord]) (.swap _ _ _) (fun document => ?_)
    [1, 1] [1, 1]
  simpa [word] using Index.settled_terms documents [] 2 .body ["new", "york"] document

/-- A word and a synonym that contains it stand on one position in the document. If the word is passed
first, it has no other position; if the synonym is, its next position forms a match with the word. -/
theorem postings_window_swap :
    let index := Index.ofDocuments [⟨"first", ⟨["a", "b"], [], [], [], []⟩⟩] []
    let word (text : String) : Query Float := .term text .body
    let either : Query Float := .apply (.list .syn) [word "a", word "b"] [1, 1]
    (listOn index (.apply (.list (.window 2)) [either, word "a"] [1, 1])).postings ≠
      (listOn index (.apply (.list (.window 2)) [word "a", either] [1, 1])).postings := by
  intro index word either same
  have ascending : index.Ascending := Index.ofDocuments_ascending _ _
  have first : (listOn index (word "a")).positionsAt 0 = [0] := by
    rw [listOn_term, Index.invertedList_ofDocuments]
    decide
  have second : (listOn index (word "b")).positionsAt 0 = [1] := by
    rw [listOn_term, Index.invertedList_ofDocuments]
    decide
  have both : (listOn index either).positionsAt 0 = [0, 1] := by
    rw [positionsAt_listOn_syn ascending (by simp [word, isList])]
    simp only [InvertedList.unitedPositions, List.map_cons, List.map_nil, List.flatMap_cons,
      List.flatMap_nil, first, second]
    exact List.mergeSort_of_pairwise (by decide)
  have shared : ∀ list ∈ [either, word "a"].map (listOn index), 0 ∈ list.documents := by
    have inWord : 0 ∈ (listOn index (word "a")).documents :=
      InvertedList.mem_documents_of_mem_positionsAt (first ▸ List.mem_singleton_self 0)
    have inEither : 0 ∈ (listOn index either).documents :=
      InvertedList.mem_documents_of_mem_positionsAt (both ▸ List.mem_cons_self)
    simp [inWord, inEither]
  have together :
      windowPositions 2 (InvertedList.rowsAt 0 ([either, word "a"].map (listOn index))) = [1] := by
    simp only [InvertedList.rowsAt, List.map_cons, List.map_nil, first, both]
    decide
  have apart :
      windowPositions 2 (InvertedList.rowsAt 0 ([word "a", either].map (listOn index))) = [] := by
    simp only [InvertedList.rowsAt, List.map_cons, List.map_nil, first, both]
    decide
  have eitherFirst := combines_window ascending 2 either (word "a") [] [1, 1]
    (by simp [word, either, isList, Operator.isList])
  have wordFirst := combines_window ascending 2 (word "a") either [] [1, 1]
    (by simp [word, either, isList, Operator.isList])
  have written := eitherFirst.mem_documents_iff.mpr ⟨shared, together ▸ List.cons_ne_nil 1 []⟩
  rw [InvertedList.documents, same, ← InvertedList.documents, wordFirst.mem_documents_iff] at written
  exact written.2 apart

end Query

end Retrieval
