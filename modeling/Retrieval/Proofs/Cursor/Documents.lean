import Mathlib.Algebra.GroupWithZero.Nat
import Mathlib.Data.Finset.Max
import Mathlib.Data.Finset.Union
import Mathlib.Order.Bounds.Basic
import Retrieval.Proofs.Posting.Ascending

/-!
# The documents of a query

Which documents a query has is said here without any movement: a term or list operator has the
documents of its inverted list, a scoring operator combines those of its operands as sets. The way in
which an operator combines them, `Matching`, depends on whether conjunctions are soft.
-/

namespace Retrieval

/-- How the documents of a scoring operator depend on those of its operands. -/
inductive Matching where
  /-- Some operand has the document. -/
  | any
  /-- All operands have the document, and there is one. -/
  | all
  /-- The first operand has the document. -/
  | leading
  /-- No document matches. -/
  | never
deriving DecidableEq

/-- How a scoring operator matches. -/
def ScoringOperator.matching (soft : Bool) : ScoringOperator → Matching
  | .and => if soft then .any else .all
  | .wand => if soft then .any else .all
  | .or => .any
  | .sum => .any
  | .wsum => .any
  | .score => .leading
  | .not => .never

theorem ScoringOperator.eq_score_of_leading {operator : ScoringOperator} {soft : Bool}
    (leading : operator.matching soft = .leading) : operator = .score := by
  cases operator <;> cases soft <;> simp [matching] at leading ⊢

namespace Matching

/-- The documents of an operator from those of its operands. -/
def documents : Matching → List (Finset DocumentId) → Finset DocumentId
  | .any, operands => operands.foldr (· ∪ ·) ∅
  | .all, [] => ∅
  | .all, first :: others => others.foldr (· ∩ ·) first
  | .leading, operands => operands.headD ∅
  | .never, _ => ∅

@[simp]
theorem mem_documents_any {operands : List (Finset DocumentId)} {document : DocumentId} :
    document ∈ any.documents operands ↔ ∃ operand ∈ operands, document ∈ operand := by
  induction operands with
  | nil => simp [documents]
  | cons operand later induction =>
      simp only [documents, List.foldr_cons, Finset.mem_union, List.mem_cons,
        exists_eq_or_imp] at induction ⊢
      rw [induction]

@[simp]
theorem mem_documents_all {operands : List (Finset DocumentId)} {document : DocumentId} :
    document ∈ all.documents operands ↔
      operands ≠ [] ∧ ∀ operand ∈ operands, document ∈ operand := by
  cases operands with
  | nil => simp [documents]
  | cons first others =>
      have folded : document ∈ others.foldr (· ∩ ·) first ↔
          document ∈ first ∧ ∀ operand ∈ others, document ∈ operand := by
        induction others with
        | nil => simp
        | cons operand later induction =>
            rw [List.foldr_cons, Finset.mem_inter, induction, List.forall_mem_cons]
            tauto
      simpa [documents] using folded

/-- A scoring operator has no document that no operand has. -/
theorem exists_of_mem_documents {matching : Matching} {operands : List (Finset DocumentId)}
    {document : DocumentId} (member : document ∈ matching.documents operands) :
    ∃ operand ∈ operands, document ∈ operand := by
  cases matching with
  | any => exact mem_documents_any.mp member
  | all =>
      obtain ⟨nonempty, each⟩ := mem_documents_all.mp member
      obtain ⟨operand, among⟩ := List.exists_mem_of_ne_nil _ nonempty
      exact ⟨operand, among, each operand among⟩
  | leading =>
      cases operands with
      | nil => simp [Matching.documents] at member
      | cons first others => exact ⟨first, List.mem_cons_self, member⟩
  | never => simp [Matching.documents] at member

end Matching

/-- The documents of an inverted list. -/
def InvertedList.documents (list : InvertedList) : Finset DocumentId :=
  (list.postings.map (·.document)).toFinset

theorem InvertedList.mem_documents {list : InvertedList} {document : DocumentId} :
    document ∈ list.documents ↔ ∃ posting ∈ list.postings, posting.document = document := by
  simp [documents]

namespace Query

variable {ω : Type} [Arithmetic ω]

/-- The inverted list that a term or a list operator has on an index; a scoring operator has none,
and the empty list stands for it. -/
def listOn (index : Index) (query : Query ω) : InvertedList :=
  ((Cursor.ofQuery query).openOn index).invertedList?.getD (.empty .body)

@[simp]
theorem listOn_term (index : Index) (text : String) (field : Field) :
    listOn index (.term text field : Query ω) = index.invertedList field text := by
  simp [listOn, Cursor.ofQuery, Cursor.openOn, Cursor.invertedList?, Cursor.reader?,
    Reader.ofList, Reader.enter]

/-- A list operator makes its list of the lists of its operands. -/
theorem listOn_list (index : Index) (operator : ListOperator) (operands : List (Query ω))
    (weights : List ω) :
    listOn index (.apply (.list operator) operands weights) =
      (Cursor.materialize (Cursor.fieldOf (Cursor.openEachOn index (Cursor.ofQueries operands)))
        operator (Cursor.openEachOn index (Cursor.ofQueries operands))).1 := by
  simp [listOn, Cursor.ofQuery, Cursor.openOn, Cursor.invertedList?, Cursor.reader?,
    Reader.ofList, Reader.enter]

/-- Opening a query that has a list reads that list from its beginning. -/
theorem reader?_openOn_ofQuery (index : Index) {query : Query ω} (isList : query.isList = true) :
    ((Cursor.ofQuery query).openOn index).reader? = some (.ofList (query.listOn index)) := by
  cases query with
  | term text field =>
      rw [listOn_term]
      rfl
  | apply operator operands weights =>
      cases operator with
      | list operator =>
          rw [listOn_list]
          rfl
      | scoring operator => simp [Query.isList, Operator.isList] at isList

theorem openEachOn_ofQueries (index : Index) (queries : List (Query ω)) :
    Cursor.openEachOn index (Cursor.ofQueries queries) =
      queries.map fun query => (Cursor.ofQuery query).openOn index := by
  induction queries with
  | nil => simp [Cursor.ofQueries, Cursor.openEachOn]
  | cons query later induction => simp [Cursor.ofQueries, Cursor.openEachOn, induction]

theorem readers_openEachOn (index : Index) {queries : List (Query ω)}
    (areLists : ∀ query ∈ queries, query.isList = true) :
    List.Forall₂ (fun list cursor => cursor.reader? = some (.ofList list))
      (queries.map (listOn index)) (Cursor.openEachOn index (Cursor.ofQueries queries)) := by
  rw [openEachOn_ofQueries, List.forall₂_map_left_iff, List.forall₂_map_right_iff, List.forall₂_same]
  exact fun query member => reader?_openOn_ofQuery index (areLists query member)

theorem listOn_ascending {index : Index} (ascending : index.Ascending) (query : Query ω) :
    (query.listOn index).Ascending := by
  rw [listOn]
  cases known : ((Cursor.ofQuery query).openOn index).invertedList? with
  | none => exact InvertedList.empty_ascending .body
  | some list => exact Cursor.openOn_ascending ascending _ list known

mutual

/-- The documents of a query on an index. -/
def documentsOn (index : Index) (soft : Bool) : Query ω → Finset DocumentId
  | .term text field => (listOn index (.term text field : Query ω)).documents
  | .apply (.list operator) operands weights =>
      (listOn index (.apply (.list operator) operands weights)).documents
  | .apply (.scoring operator) operands _ =>
      (operator.matching soft).documents (documentsOnEach index soft operands)

/-- The documents of several queries on an index. -/
def documentsOnEach (index : Index) (soft : Bool) : List (Query ω) → List (Finset DocumentId)
  | [] => []
  | query :: later => query.documentsOn index soft :: documentsOnEach index soft later

end

theorem documentsOnEach_eq_map (index : Index) (soft : Bool) (queries : List (Query ω)) :
    documentsOnEach index soft queries = queries.map (documentsOn index soft) := by
  induction queries with
  | nil => simp [documentsOnEach]
  | cons query later induction => simp [documentsOnEach, induction]

@[simp]
theorem documentsOn_scoring (index : Index) (soft : Bool) (operator : ScoringOperator)
    (operands : List (Query ω)) (weights : List ω) :
    documentsOn index soft (.apply (.scoring operator) operands weights) =
      (operator.matching soft).documents (operands.map (documentsOn index soft)) := by
  rw [documentsOn, documentsOnEach_eq_map]

theorem documentsOn_of_isList (index : Index) (soft : Bool) {query : Query ω}
    (isList : query.isList = true) :
    query.documentsOn index soft = (query.listOn index).documents := by
  cases query with
  | term text field => rw [documentsOn]
  | apply operator operands weights =>
      cases operator with
      | list operator => rw [documentsOn]
      | scoring operator => simp [Query.isList, Operator.isList] at isList

end Query

/-! ## The next of some documents -/

/-- What a search for the next of some documents finds: the least of them, or nothing if there are
none. -/
def IsNext (documents : Set DocumentId) : Option DocumentId → Prop
  | some document => IsLeast documents document
  | none => documents = ∅

/-- The documents from a given one on. -/
def documentsFrom (documents : Finset DocumentId) (bound : DocumentId) : Set DocumentId :=
  {document | document ∈ documents ∧ bound ≤ document}

namespace IsNext

variable {documents : Set DocumentId}

theorem mem {document : DocumentId} {found : Option DocumentId} (next : IsNext documents found)
    (same : found = some document) : document ∈ documents := by
  subst same
  exact next.1

theorem le {document other : DocumentId} {found : Option DocumentId}
    (next : IsNext documents found) (same : found = some document) (member : other ∈ documents) :
    document ≤ other := by
  subst same
  exact next.2 member

theorem notMem {document : DocumentId} {found : Option DocumentId} (next : IsNext documents found)
    (ended : found = none) : document ∉ documents := by
  subst ended
  exact next ▸ Set.notMem_empty document

theorem exists_of_mem {document : DocumentId} {found : Option DocumentId}
    (next : IsNext documents found) (member : document ∈ documents) :
    ∃ least, found = some least ∧ least ≤ document := by
  cases found with
  | none => exact absurd member (next ▸ Set.notMem_empty document)
  | some least => exact ⟨least, rfl, next.2 member⟩

end IsNext

end Retrieval
