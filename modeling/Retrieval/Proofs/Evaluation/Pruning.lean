import Retrieval.Proofs.Evaluation.Probabilities
import Retrieval.Proofs.Posting.Permuted
import Retrieval.Proofs.Query.WellFormed

/-!
# Pruning below disjunctions

A part of a query without terms has no documents. A conjunction with such an operand has none either, but
a disjunction or a synonym has those of its other operands, and it may as well be without that one. So if
all parts without terms stand below disjunctions and synonyms, pruning changes neither the documents and
positions of what remains nor, under the Boolean models, the scores.
-/

namespace Retrieval

/-- The operator has what any of its operands has. -/
def Operator.isDisjunctive : Operator → Bool
  | .list .syn => true
  | .scoring .or => true
  | .scoring .sum => true
  | .scoring .wsum => true
  | _ => false

/-! ## Items without documents -/

section Keeping

variable {α β : Type} {items : List α} {keeps : α → Bool}

theorem exists_mem_map_iff {change : α → β} {holds : β → Prop} :
    (∃ image ∈ items.map change, holds image) ↔ ∃ item ∈ items, holds (change item) := by
  simp

/-- Items to which nothing belongs may be left out. -/
theorem flatMap_filter_keeps {belongings : α → List β}
    (nothing : ∀ item ∈ items, keeps item = false → belongings item = []) :
    (items.filter keeps).flatMap belongings = items.flatMap belongings := by
  induction items with
  | nil => rfl
  | cons item later induction =>
      obtain ⟨head, others⟩ := List.forall_mem_cons.mp nothing
      cases kept : keeps item with
      | false =>
          rw [List.filter_cons_of_neg (by simp [kept]), List.flatMap_cons, head kept, List.nil_append,
            induction others]
      | true => rw [List.filter_cons_of_pos kept, List.flatMap_cons, List.flatMap_cons, induction others]

variable {documents : α → Finset DocumentId}
  (empty : ∀ item ∈ items, keeps item = false → documents item = ∅)

include empty

/-- Where only items without documents are left out, those with a document remain. -/
theorem keeps_of_mem {item : α} (member : item ∈ items) {document : DocumentId}
    (present : document ∈ documents item) : keeps item = true := by
  by_contra dropped
  rw [empty item member (by simpa using dropped)] at present
  exact absurd present (Finset.notMem_empty document)

theorem exists_mem_filter_iff (document : DocumentId) :
    (∃ item ∈ items, document ∈ documents item) ↔
      ∃ item ∈ items.filter keeps, document ∈ documents item := by
  constructor
  · rintro ⟨item, member, present⟩
    exact ⟨item, List.mem_filter.mpr ⟨member, keeps_of_mem empty member present⟩, present⟩
  · rintro ⟨item, member, present⟩
    exact ⟨item, List.mem_of_mem_filter member, present⟩

end Keeping

/-! ## Lists with the same postings -/

namespace InvertedList

variable {list other : InvertedList} {lists others : List InvertedList}

theorem documents_congr (same : list.postings = other.postings) : list.documents = other.documents := by
  rw [documents, documents, same]

theorem positionsAt_congr (same : list.postings = other.postings) (document : DocumentId) :
    list.positionsAt document = other.positionsAt document := by
  rw [positionsAt, positionsAt, same]

theorem frequencyAt_congr (same : list.postings = other.postings) (document : DocumentId) :
    list.frequencyAt document = other.frequencyAt document := by
  rw [frequencyAt, frequencyAt, same]

theorem documents_eq_empty (none : list.postings = []) : list.documents = ∅ := by
  rw [documents, none]
  rfl

/-- Lists that have the same postings one by one. -/
def SamePostings (lists others : List InvertedList) : Prop :=
  List.Forall₂ (fun list other => list.postings = other.postings) lists others

theorem SamePostings.documents_eq (same : SamePostings lists others) :
    lists.map documents = others.map documents :=
  map_eq_of_forall₂ (same.imp fun _ _ => documents_congr)

theorem SamePostings.rowsAt_eq (same : SamePostings lists others) (document : DocumentId) :
    rowsAt document lists = rowsAt document others :=
  map_eq_of_forall₂ (same.imp fun _ _ head => positionsAt_congr head document)

/-- What lists combine to depends on their postings alone. -/
theorem Combines.postings_eq {combine : List (List Nat) → List Nat} (combines : list.Combines combine lists)
    (otherCombines : other.Combines combine others) (ascending : list.Ascending)
    (otherAscending : other.Ascending) (same : SamePostings lists others) :
    list.postings = other.postings := by
  refine ascending.postings_eq otherAscending fun posting => ?_
  have shared : (∀ list ∈ lists, posting.document ∈ list.documents) ↔
      ∀ list ∈ others, posting.document ∈ list.documents := by
    rw [← List.forall_mem_map (f := documents) (P := (posting.document ∈ ·)), same.documents_eq,
      List.forall_mem_map]
  rw [combines posting, otherCombines posting, same.rowsAt_eq, shared]

end InvertedList

namespace Cursor

open InvertedList

variable {ω : Type} {lists others : List InvertedList} {cursors moved : List (Cursor ω)}

/-- What a list operator writes depends on the postings of its operands alone. -/
theorem materialize_congr (field other : Field) (operator : ListOperator)
    (ascending : ∀ list ∈ lists, list.Ascending) (otherAscending : ∀ list ∈ others, list.Ascending)
    (read : List.Forall₂ (fun list cursor => cursor.reader? = some (.ofList list)) lists cursors)
    (otherRead : List.Forall₂ (fun list cursor => cursor.reader? = some (.ofList list)) others moved)
    (same : SamePostings lists others) :
    (materialize field operator cursors).1.postings = (materialize other operator moved).1.postings := by
  have ascends := materialize_ascending field operator (ascending_of_read ascending read)
  have otherAscends := materialize_ascending other operator (ascending_of_read otherAscending otherRead)
  by_cases synonym : operator = .syn
  · subst synonym
    refine materialize_syn_congr field other ascending otherAscending read otherRead
      (fun document => ?_) fun document => ?_
    · rw [← @exists_mem_map_iff _ _ lists documents (document ∈ ·), same.documents_eq,
        exists_mem_map_iff]
    · rw [List.flatMap_def, List.flatMap_def, ← rowsAt, ← rowsAt, same.rowsAt_eq]
  · cases same with
    | nil =>
        obtain rfl := List.forall₂_nil_left_iff.mp read
        obtain rfl := List.forall₂_nil_left_iff.mp otherRead
        cases operator <;> rfl
    | @cons first firstOther later laterOthers head tail =>
        cases tail with
        | nil =>
            obtain ⟨cursor, ended, known, none, rfl⟩ := List.forall₂_cons_left_iff.mp read
            obtain ⟨otherCursor, otherEnded, otherKnown, otherNone, rfl⟩ :=
              List.forall₂_cons_left_iff.mp otherRead
            obtain rfl := List.forall₂_nil_left_iff.mp none
            obtain rfl := List.forall₂_nil_left_iff.mp otherNone
            cases operator with
            | syn => exact absurd rfl synonym
            | near | window =>
                simpa [materialize, invertedList?, known, otherKnown, Reader.ofList, Reader.enter] using head
        | @cons second secondOther rest restOthers next tails =>
            have same : SamePostings (first :: second :: rest) (firstOther :: secondOther :: restOthers) :=
              .cons head (.cons next tails)
            cases operator with
            | syn => exact absurd rfl synonym
            | near distance =>
                exact (combines_materialize_near field distance ascending read).postings_eq
                  (combines_materialize_near other distance otherAscending otherRead) ascends otherAscends
                  same
            | window size =>
                exact (combines_materialize_window field size ascending read).postings_eq
                  (combines_materialize_window other size otherAscending otherRead) ascends otherAscends
                  same

end Cursor

/-! ## Parts without terms -/

namespace Query

variable {ω : Type} [Arithmetic ω] {analyzer : Analyzer} {index : Index}

/-- A list operator has the postings that it has with other operands in their place, if these have the
same postings. -/
theorem postings_listOn_congr (ascending : index.Ascending) (operator : ListOperator)
    {operands others : List (Query ω)} (areLists : ∀ operand ∈ operands, operand.isList = true)
    (otherLists : ∀ operand ∈ others, operand.isList = true)
    (same : List.Forall₂ (fun operand other =>
      (operand.listOn index).postings = (other.listOn index).postings) operands others)
    (weights otherWeights : List ω) :
    (listOn index (.apply (.list operator) operands weights)).postings =
      (listOn index (.apply (.list operator) others otherWeights)).postings := by
  rw [listOn_list, listOn_list]
  exact Cursor.materialize_congr _ _ operator (listsOn_ascending ascending operands)
    (listsOn_ascending ascending others) (readers_openEachOn index areLists)
    (readers_openEachOn index otherLists)
    (List.forall₂_map_left_iff.mpr (List.forall₂_map_right_iff.mpr same))

/-- A synonym has the postings that it has without operands that have none. -/
theorem postings_syn_filter (ascending : index.Ascending) {operands : List (Query ω)}
    (areLists : ∀ operand ∈ operands, operand.isList = true) {keeps : Query ω → Bool}
    (empty : ∀ operand ∈ operands, keeps operand = false → (operand.listOn index).postings = [])
    (weights otherWeights : List ω) :
    (listOn index (.apply (.list .syn) operands weights)).postings =
      (listOn index (.apply (.list .syn) (operands.filter keeps) otherWeights)).postings := by
  have noDocuments : ∀ operand ∈ operands, keeps operand = false → (operand.listOn index).documents = ∅ :=
    fun operand member dropped => InvertedList.documents_eq_empty (empty operand member dropped)
  rw [listOn_list, listOn_list]
  refine Cursor.materialize_syn_congr _ _ (listsOn_ascending ascending operands)
    (listsOn_ascending ascending _) (readers_openEachOn index areLists)
    (readers_openEachOn index fun operand member => areLists operand (List.mem_of_mem_filter member))
    (fun document => ?_) fun document => ?_
  · rw [exists_mem_map_iff, exists_mem_map_iff]
    exact exists_mem_filter_iff noDocuments document
  · rw [List.flatMap_map, List.flatMap_map, ← flatMap_filter_keeps fun operand member dropped => ?_]
    refine InvertedList.positionsAt_eq_nil ?_
    rw [noDocuments operand member dropped]
    exact Finset.notMem_empty document

/-- A list without terms would be well formed if the collection were empty. -/
theorem WellFormed.listOn_wellFormed_zero (index : Index) {query : Query ω}
    (wellFormed : query.WellFormed analyzer) (isList : query.isList = true) (absent : query.terms = []) :
    (query.listOn index).WellFormed 0 := by
  induction wellFormed with
  | term field found => cases absent
  | score => cases isList
  | @apply operator items named weighs kinds each induction =>
      cases operator with
      | scoring operator => cases isList
      | list operator =>
          rw [terms_apply_eq_nil_iff] at absent
          rw [listOn_list]
          refine Cursor.materialize_wellFormed_of_read _ operator (List.forall_mem_map.mpr
            (List.forall_mem_map.mpr fun item member => ?_))
            (readers_openEachOn index (List.forall_mem_map.mpr kinds))
          exact induction item member (kinds item member)
            (absent item.2 (List.mem_map_of_mem member))

theorem WellFormed.postings_eq_nil (index : Index) {query : Query ω} (wellFormed : query.WellFormed analyzer)
    (isList : query.isList = true) (absent : query.terms = []) : (query.listOn index).postings = [] := by
  have empty := wellFormed.listOn_wellFormed_zero index isList absent
  refine List.eq_nil_iff_forall_not_mem.mpr fun posting member => ?_
  exact Nat.not_lt_zero _ (empty.posted posting member).bounded

/-- A query without terms has no documents. -/
theorem WellFormed.documentsOn_eq_empty (index : Index) (soft : Bool) {query : Query ω}
    (wellFormed : query.WellFormed analyzer) (absent : query.terms = []) :
    query.documentsOn index soft = ∅ := by
  induction query using inductionOn with
  | term text field => cases absent
  | apply operator operands weights induction =>
      cases operator with
      | list operator =>
          rw [documentsOn_of_isList index soft rfl]
          exact InvertedList.documents_eq_empty (wellFormed.postings_eq_nil index rfl absent)
      | scoring operator =>
          rw [terms_apply_eq_nil_iff] at absent
          refine Finset.eq_empty_of_forall_notMem fun document member => ?_
          rw [documentsOn_scoring] at member
          obtain ⟨documents, among, present⟩ := Matching.exists_of_mem_documents member
          obtain ⟨operand, inside, rfl⟩ := List.mem_map.mp among
          rw [induction operand inside (wellFormed.operand operand inside) (absent operand inside)]
            at present
          exact absurd present (Finset.notMem_empty _)

/-! ## Queries that agree -/

/-- The second query has the documents, the postings and the scores of the first one. -/
structure Agrees (index : Index) (model : Model ω) (query other : Query ω) : Prop where
  /-- The documents are the same. -/
  documents : query.documentsOn index model.isSoft = other.documentsOn index model.isSoft
  /-- The postings are the same. -/
  postings : (query.listOn index).postings = (other.listOn index).postings
  /-- The scores are the same. -/
  scores : ∀ document, query.scoreAt index model document = other.scoreAt index model document

variable {model : Model ω} {query other : Query ω} {operands others : List (Query ω)}

theorem Agrees.refl (query : Query ω) : query.Agrees index model query :=
  ⟨rfl, rfl, fun _ => rfl⟩

theorem Agrees.trans {last : Query ω} (first : query.Agrees index model other)
    (second : other.Agrees index model last) : query.Agrees index model last :=
  ⟨first.documents.trans second.documents, first.postings.trans second.postings,
    fun document => (first.scores document).trans (second.scores document)⟩

section Boolean

variable (boolean : model = .unrankedBoolean ∨ model = .rankedBoolean)

include boolean

theorem listScoreAt_congr (same : (query.listOn index).postings = (other.listOn index).postings)
    (document : DocumentId) :
    query.listScoreAt index model document = other.listScoreAt index model document := by
  rcases boolean with rfl | rfl
  · rfl
  · rw [listScoreAt, listScoreAt, InvertedList.frequencyAt_congr same]

/-- Lists agree if they have the same postings. -/
theorem agrees_of_postings (isList : query.isList = true) (otherIsList : other.isList = true)
    (same : (query.listOn index).postings = (other.listOn index).postings) :
    query.Agrees index model other where
  documents := by
    rw [documentsOn_of_isList index _ isList, documentsOn_of_isList index _ otherIsList,
      InvertedList.documents_congr same]
  postings := same
  scores := by
    intro document
    rw [scoreAt_of_isList index model document isList, scoreAt_of_isList index model document otherIsList,
      listScoreAt_congr boolean same]

theorem Agrees.score (agrees : query.Agrees index model other) :
    query.score.Agrees index model other.score where
  documents := by
    rw [Query.score, Query.score, documentsOn_scoring, documentsOn_scoring, List.map_singleton,
      List.map_singleton, agrees.documents]
  postings := rfl
  scores := listScoreAt_congr boolean agrees.postings

omit boolean in
/-- The documents of an operand and its score of a document, which are what an operator reads of it. -/
def reading (index : Index) (model : Model ω) (document : DocumentId) (query : Query ω) :
    Finset DocumentId × Except Error ω :=
  (query.documentsOn index model.isSoft, query.scoreAt index model document)

/-- A scoring operator agrees with the one over operands that agree. -/
theorem agrees_scoring_congr {operator : ScoringOperator} (differs : operator ≠ .score)
    (each : List.Forall₂ (Agrees index model) operands others) (weights otherWeights : List ω) :
    (apply (.scoring operator) operands weights).Agrees index model
      (.apply (.scoring operator) others otherWeights) where
  documents := by
    rw [documentsOn_scoring, documentsOn_scoring, map_eq_of_forall₂ (each.imp fun _ _ => Agrees.documents)]
  postings := by rw [Cursor.listOn_of_not_isList rfl, Cursor.listOn_of_not_isList rfl]
  scores := by
    intro document
    have readings : operands.map (reading index model document) =
        others.map (reading index model document) :=
      map_eq_of_forall₂ (each.imp fun _ _ agrees => Prod.ext agrees.documents (agrees.scores document))
    have all : ∀ queries : List (Query ω), (scoresAt index model document queries).mapM Prod.snd =
        (queries.map (reading index model document)).mapM Prod.snd := by
      intro queries
      rw [scoresAt_eq_map, List.mapM_map, List.mapM_map]
      rfl
    have present : ∀ queries : List (Query ω),
        presentAt index model.isSoft document (scoresAt index model document queries) =
          ((queries.map (reading index model document)).filter (document ∈ ·.1)).mapM Prod.snd := by
      intro queries
      rw [presentAt_eq_mapM, List.filter_map, List.mapM_map]
      rfl
    rw [scoreAt, scoreAt]
    cases operator with
    | score => exact absurd rfl differs
    | and =>
        rcases boolean with rfl | rfl
        · rfl
        · rw [combinedAt, combinedAt, all, all, readings]
    | or =>
        rcases boolean with rfl | rfl
        · rfl
        · rw [combinedAt, combinedAt, present, present, readings]
    | not => rfl
    | sum | wand | wsum => rcases boolean with rfl | rfl <;> rfl

/-- A disjunction agrees with the one without operands that have no documents. -/
theorem agrees_disjunction_filter {operator : ScoringOperator}
    (disjunctive : (Operator.scoring operator).isDisjunctive = true) {keeps : Query ω → Bool}
    (empty : ∀ operand ∈ operands, keeps operand = false →
      operand.documentsOn index model.isSoft = ∅) (weights otherWeights : List ω) :
    (apply (.scoring operator) operands weights).Agrees index model
      (.apply (.scoring operator) (operands.filter keeps) otherWeights) := by
  refine ⟨?_, ?_, fun document => ?_⟩
  · have matching : operator.matching model.isSoft = .any := by
      cases operator with
      | or | sum | wsum => rfl
      | and | wand | score | not => cases disjunctive
    ext document
    rw [documentsOn_scoring, documentsOn_scoring, matching, Matching.mem_documents_any,
      Matching.mem_documents_any, exists_mem_map_iff, exists_mem_map_iff]
    exact exists_mem_filter_iff empty document
  · rw [Cursor.listOn_of_not_isList rfl, Cursor.listOn_of_not_isList rfl]
  · rw [scoreAt, scoreAt]
    cases operator with
    | or =>
        rcases boolean with rfl | rfl
        · rfl
        · rw [combinedAt, combinedAt, presentAt_eq_mapM, presentAt_eq_mapM, List.filter_filter]
          refine congrArg (Except.map greatest) (congrArg (List.mapM _) ?_)
          refine List.filter_congr fun operand member => ?_
          rw [Bool.eq_iff_iff, Bool.and_eq_true, decide_eq_true_eq]
          exact ⟨fun present => ⟨present, keeps_of_mem empty member present⟩, And.left⟩
    | sum | wsum => rcases boolean with rfl | rfl <;> rfl
    | and | wand | score | not => cases disjunctive

end Boolean

/-! ## Pruned queries -/

/-- A term occurs in the query. -/
def hasTerms (query : Query ω) : Bool :=
  !query.terms.isEmpty

/-- Every part without terms that is an operand of one with terms is an operand of a disjunction or a
synonym. -/
def EmptyBelowDisjunctions (query : Query ω) : Prop :=
  ∀ operator operands weights, .apply operator operands weights ∈ query.parts →
    (apply operator operands weights).terms ≠ [] →
      ∀ operand ∈ operands, operand.terms = [] → operator.isDisjunctive = true

omit [Arithmetic ω] in
theorem EmptyBelowDisjunctions.operand {operator : Operator} {weights : List ω}
    (disjoint : (apply operator operands weights).EmptyBelowDisjunctions) {operand : Query ω}
    (member : operand ∈ operands) : operand.EmptyBelowDisjunctions :=
  fun inner others otherWeights inside => disjoint inner others otherWeights
    (mem_parts_apply.mpr (.inr ⟨operand, member, inside⟩))

theorem TrimsEach.forall₂ {relation : Query ω → Query ω → Prop} {items kept : List (ω × Query ω)} :
    TrimsEach items kept →
      (∀ item ∈ items, item.2.terms ≠ [] → ∀ trimmed, item.2.Trims trimmed → relation item.2 trimmed) →
        List.Forall₂ relation ((items.map Prod.snd).filter hasTerms) (kept.map Prod.snd)
  | .nil, _ => .nil
  | .drop absent later, related => by
      rw [List.map_cons, List.filter_cons_of_neg (by simp [hasTerms, absent])]
      exact later.forall₂ (List.forall_mem_cons.mp related).2
  | .keep occurs head later, related => by
      obtain ⟨first, others⟩ := List.forall_mem_cons.mp related
      rw [List.map_cons, List.filter_cons_of_pos (by simpa [hasTerms] using occurs)]
      exact .cons (first occurs _ head) (later.forall₂ others)

theorem TrimsEach.isList_eq {items kept : List (ω × Query ω)} {isList : Bool} :
    TrimsEach items kept → (∀ item ∈ items, item.2.isList = isList) → ∀ item ∈ kept, item.2.isList = isList
  | .nil, _ => by simp
  | .drop _ later, kinds => later.isList_eq (List.forall_mem_cons.mp kinds).2
  | .keep _ head later, kinds => by
      obtain ⟨kind, others⟩ := List.forall_mem_cons.mp kinds
      exact List.forall_mem_cons.mpr ⟨head.isList_eq.trans kind, later.isList_eq others⟩

section Boolean

variable (boolean : model = .unrankedBoolean ∨ model = .rankedBoolean) (ascending : index.Ascending)

include boolean ascending

/-- An operator agrees with the one over operands that agree. -/
theorem agrees_congr {operator : Operator} (differs : operator ≠ .scoring .score)
    (kinds : ∀ operand ∈ operands, operand.isList = operator.isList)
    (otherKinds : ∀ operand ∈ others, operand.isList = operator.isList)
    (each : List.Forall₂ (Agrees index model) operands others) (weights otherWeights : List ω) :
    (apply operator operands weights).Agrees index model (.apply operator others otherWeights) := by
  cases operator with
  | list operator =>
      refine agrees_of_postings boolean rfl rfl ?_
      exact postings_listOn_congr ascending operator kinds otherKinds
        (each.imp fun _ _ => Agrees.postings) weights otherWeights
  | scoring operator =>
      exact agrees_scoring_congr boolean (fun same => differs (congrArg _ same)) each weights otherWeights

/-- A disjunction or a synonym agrees with the one without operands in which no term occurs. -/
theorem WellFormed.agrees_filter {operator : Operator} (disjunctive : operator.isDisjunctive = true)
    {weights : List ω} (wellFormed : (Query.apply operator operands weights).WellFormed analyzer)
    (otherWeights : List ω) :
    (Query.apply operator operands weights).Agrees index model
      (.apply operator (operands.filter hasTerms) otherWeights) := by
  have absent : ∀ operand : Query ω, operand.hasTerms = false → operand.terms = [] := by
    simp [hasTerms]
  cases operator with
  | list operator =>
      cases operator with
      | syn =>
          have areLists := wellFormed.isList_of_mem
          refine agrees_of_postings boolean rfl rfl ?_
          refine postings_syn_filter ascending areLists (fun operand member none => ?_) weights otherWeights
          exact (wellFormed.operand operand member).postings_eq_nil index (areLists operand member)
            (absent operand none)
      | near | window => cases disjunctive
  | scoring operator =>
      refine agrees_disjunction_filter boolean disjunctive (fun operand member none => ?_) weights
        otherWeights
      exact (wellFormed.operand operand member).documentsOn_eq_empty index model.isSoft
        (absent operand none)

/-- Whatever remains of a well-formed query agrees with the query, if the parts without terms are operands
of disjunctions and synonyms. -/
theorem WellFormed.agrees_trims (wellFormed : query.WellFormed analyzer) :
    ∀ kept, query.Trims kept → query.terms ≠ [] → query.EmptyBelowDisjunctions →
      query.Agrees index model kept := by
  induction wellFormed with
  | term field found =>
      intro kept trims _ _
      cases trims
      exact .refl _
  | @score list isList inside induction =>
      intro kept trims occurs disjoint
      obtain ⟨items, each, rfl⟩ := trims.exists_items
      cases each with
      | drop absent later =>
          exact absurd (terms_apply_eq_nil_iff.mpr (List.forall_mem_singleton.mpr absent)) occurs
      | keep occursHere head later =>
          cases later with
          | nil =>
              exact (induction _ head occursHere (disjoint.operand List.mem_cons_self)).score boolean
  | @apply operator items named weighs kinds each induction =>
      intro kept trims occurs disjoint
      have whole := WellFormed.apply named weighs kinds each
      obtain ⟨others, trimsEach, rfl⟩ := trims.exists_items
      rw [weighed_map] at trimsEach
      have differs : operator ≠ .scoring .score := by
        rintro rfl
        exact named.elim
      have paired : List.Forall₂ (Agrees index model) ((items.map Prod.snd).filter hasTerms)
          (others.map Prod.snd) :=
        trimsEach.forall₂ fun item member found trimmed head => induction item member trimmed head found
          (disjoint.operand (List.mem_map_of_mem member))
      have areKinds : ∀ operand ∈ items.map Prod.snd, operand.isList = operator.isList :=
        List.forall_mem_map.mpr kinds
      have agrees := agrees_congr boolean ascending differs
        (fun operand member => areKinds operand (List.mem_of_mem_filter member))
        (List.forall_mem_map.mpr (trimsEach.isList_eq kinds)) paired
      by_cases disjunctive : operator.isDisjunctive = true
      · exact (whole.agrees_filter boolean ascending disjunctive []).trans (agrees [] _)
      · have full : (items.map Prod.snd).filter hasTerms = items.map Prod.snd := by
          refine List.filter_eq_self.mpr fun operand member => ?_
          by_contra absent
          exact disjunctive (disjoint _ _ _ (mem_parts_self _) occurs operand member
            (by simpa [hasTerms] using absent))
        rw [full] at agrees
        exact agrees _ _

end Boolean

theorem Agrees.scan_eq (agrees : query.Agrees index model other) :
    query.scan index model = other.scan index model := by
  have scored : query.scoredAt index model = other.scoredAt index model := by
    funext document
    rw [scoredAt, scoredAt, agrees.scores]
  rw [scan, scan, agrees.documents, scored]

end Query

namespace Engine

variable {ω : Type} [Arithmetic ω]

/-- Under the Boolean models a query that has been read is evaluated as its pruned form is, with the same
documents and scores or the same failure, if its parts without terms are operands of disjunctions and
synonyms. -/
theorem evaluatePlan_prune (documents : List Document) (stopwords : List String) (analyzer : Analyzer)
    {model : Model ω} (boolean : model = .unrankedBoolean ∨ model = .rankedBoolean)
    {reader : Engine ω} {text : String} {query : Query ω} (parsed : reader.parse text = .ok query)
    (disjoint : query.EmptyBelowDisjunctions) :
    let engine : Engine ω := ⟨.ofDocuments documents stopwords, model, analyzer⟩
    engine.evaluatePlan (some query) = engine.evaluatePlan query.prune := by
  intro engine
  have ascending : engine.index.Ascending := Index.ofDocuments_ascending documents stopwords
  have wellFormed := Query.wellFormed_of_parse parsed
  cases pruned : query.prune with
  | none =>
      have absent := Query.prune_eq_none_iff.mp pruned
      rw [evaluatePlan, evaluatePlan]
      by_cases nonempty : query.operands = []
      · rw [evaluate, if_pos (by simpa using nonempty)]
      · rw [evaluate_eq_scan ascending nonempty, Query.scan,
          wellFormed.documentsOn_eq_empty engine.index engine.model.isSoft absent, Finset.sort_empty,
          List.mapM_nil]
        exact congrArg Except.ok (List.perm_nil.mp (Ranking.sort_perm []))
  | some kept =>
      obtain ⟨occurs, trims⟩ := Query.trims_of_prune pruned
      have agrees := wellFormed.agrees_trims boolean ascending kept trims occurs disjoint
      have isApply := Query.isApply_of_parse parsed
      have nonempty : query.operands ≠ [] := by
        obtain ⟨operator, operands, weights, rfl⟩ := isApply
        intro none
        exact occurs (Query.terms_apply_eq_nil_iff.mpr (by simp [show operands = [] from none]))
      rw [evaluatePlan, evaluatePlan, evaluate_eq_scan ascending nonempty,
        evaluate_eq_scan ascending (Query.operands_ne_nil_of_prune isApply pruned)]
      exact agrees.scan_eq

end Engine

/-! ## A synonym with an empty operand -/

namespace Query

/-- A word beside a synonym of the word with something else. -/
noncomputable def catOrSynonym (synonyms : List (Query RealNumber)) (weights : List RealNumber) : Query RealNumber :=
  .apply (.scoring .or) [(term "cat" .body).score, (apply (.list .syn) synonyms weights).score] [1, 1]

/-- An ordered match of nothing. -/
def noMatch : Query RealNumber := .apply (.list (.near 1)) [] []

theorem parse_catOrSynonym :
    (Engine.mk oneWord (.rankedBoolean : Model RealNumber) (.ofStopwords [])).parse
      "cat #syn(#near/1() cat)" = .ok (catOrSynonym [noMatch, .term "cat" .body] [1, 1]) := by
  have named := Operator.isNamed_label_defaultOperator (Model.rankedBoolean : Model RealNumber)
  have nothing : Operand (.ofStopwords []) (.list .syn) _ [noMatch] :=
    .apply (Operator.isNamed_of_ofWord (by rfl) : (Operator.list (.near 1)).IsNamed "#near/1")
      (fun _ => rfl) .nil
  have synonym : Operand (.ofStopwords []) (.scoring .or) _ _ :=
    .apply (Operator.isNamed_of_ofWord (by rfl) : (Operator.list .syn).IsNamed "#syn")
      (fun isList => by cases isList) (.plain rfl nothing (.plain rfl (.terms (by decide) standsFor_cat) .nil))
  have derives : Items (.ofStopwords []) (.scoring .or) (Token.scan "cat #syn(#near/1() cat)") _ :=
    .plain rfl (.terms (by decide) standsFor_cat) (.plain rfl synonym .nil)
  exact (parse_eq_ok_iff_of_isNamed named).mpr ⟨_, derives, rfl⟩

theorem emptyBelowDisjunctions_catOrSynonym :
    (catOrSynonym [noMatch, .term "cat" .body] [1, 1]).EmptyBelowDisjunctions := by
  intro operator operands weights member occurs operand inside absent
  simp only [catOrSynonym, Query.score, noMatch, parts, partsOfEach, List.append_nil, List.mem_cons,
    List.mem_append, List.not_mem_nil, or_false, Query.apply.injEq, reduceCtorEq] at member
  rcases member with ⟨rfl, -, -⟩ | ⟨rfl, rfl, -⟩ | ⟨rfl, rfl, -⟩ | ⟨rfl, -, -⟩ | ⟨rfl, rfl, -⟩
  · rfl
  · obtain rfl := List.mem_singleton.mp inside
    cases absent
  · obtain rfl := List.mem_singleton.mp inside
    cases absent
  · rfl
  · exact absurd inside List.not_mem_nil

end Query

namespace Engine

theorem evaluatePlan_prune_catOrSynonym :
    let engine : Engine RealNumber := ⟨oneWord, .rankedBoolean, .ofStopwords []⟩
    let query := Query.catOrSynonym [Query.noMatch, .term "cat" .body] [1, 1]
    engine.parse "cat #syn(#near/1() cat)" = .ok query ∧ query.EmptyBelowDisjunctions ∧
      query.prune = some (Query.catOrSynonym [.term "cat" .body] [1]) ∧
        engine.evaluatePlan (some query) = engine.evaluatePlan query.prune :=
  ⟨Query.parse_catOrSynonym, Query.emptyBelowDisjunctions_catOrSynonym, rfl,
    evaluatePlan_prune _ _ _ (.inr rfl) Query.parse_catOrSynonym
      Query.emptyBelowDisjunctions_catOrSynonym⟩

end Engine

end Retrieval
