import Retrieval.Proofs.Cursor.Documents
import Retrieval.Proofs.Cursor.Shape

/-!
# Where a cursor stands

A cursor of a query stands at a bound if exactly those documents of the query are ahead of it that are
not less than the bound. The operands may stand at other bounds than the operator does, as long as no
document of the operator is lost or won by that: operands of a conjunction leap over each other, and
operands of an operator that keeps its match lag behind. The relation `Stands` is the invariant of all
operations on cursors.
-/

namespace Retrieval

/-- The reader of a list at its first document that is not less than the bound. -/
def Reader.since (bound : DocumentId) (list : InvertedList) : Reader :=
  enter list (list.postings.filter fun posting => bound ≤ posting.document)

/-- The bounds of the operands, each beside its documents, admit the same documents of the operator
as the bound of the operator does. -/
def Matching.Follows (bound : DocumentId) (operands : List (DocumentId × Finset DocumentId)) :
    Matching → Prop
  | .any => ∀ operand ∈ operands, ∀ document ∈ operand.2, bound ≤ document ↔ operand.1 ≤ document
  | .all => ∀ document ∈ Matching.all.documents (operands.map Prod.snd),
      bound ≤ document ↔ ∀ operand ∈ operands, operand.1 ≤ document
  | .leading => ∀ operand, operands.head? = some operand →
      ∀ document ∈ operand.2, bound ≤ document ↔ operand.1 ≤ document
  | .never => True

/-- The bound of a query, and the query. -/
abbrev Standpoint (ω : Type) := DocumentId × Query ω

namespace Standpoint

/-- The standpoint moved to a document. -/
def raise {ω : Type} (document : DocumentId) (place : Standpoint ω) : Standpoint ω :=
  (max place.1 document, place.2)

theorem map_raise_snd {ω : Type} (document : DocumentId) (places : List (Standpoint ω)) :
    (places.map (raise document)).map Prod.snd = places.map Prod.snd := by
  simp [raise]

variable {ω : Type} [Arithmetic ω] (index : Index) (soft : Bool)

/-- The bound beside the documents of the query. -/
def documents (place : Standpoint ω) : DocumentId × Finset DocumentId :=
  (place.1, place.2.documentsOn index soft)

theorem map_documents (places : List (Standpoint ω)) :
    (places.map (documents index soft)).map Prod.snd =
      (places.map Prod.snd).map (Query.documentsOn index soft) := by
  simp [documents]

theorem map_raise_documents (document : DocumentId) (places : List (Standpoint ω)) :
    (places.map (raise document)).map (documents index soft) =
      (places.map (documents index soft)).map fun operand =>
        (max operand.1 document, operand.2) := by
  simp [documents, raise]

end Standpoint

/-- The statistics that an operator of some queries takes from an index. -/
def ScoringOperator.statisticsOn {ω : Type} [Arithmetic ω] (index : Index)
    (queries : List (Query ω)) (operator : ScoringOperator) : Option (SumStatistics ω) :=
  if operator = .sum then
    some (.ofOperands index (Cursor.openEachOn index (Cursor.ofQueries queries)))
  else none

namespace Cursor

variable {ω : Type} [Arithmetic ω]

mutual

/-- The cursor evaluates the query and stands at the bound. -/
inductive Stands (index : Index) (soft : Bool) : DocumentId → Query ω → Cursor ω → Prop
  /-- A term stands where its reader does. -/
  | term {bound : DocumentId} {text : String} {field : Field} :
      Stands index soft bound (.term text field)
        (.term text field (some (.since bound (Query.listOn index (.term text field : Query ω)))))
  /-- A list operator stands where its reader does; its operands have been read before. -/
  | list {bound : DocumentId} {operator : ListOperator} {operands : List (Cursor ω)}
      {weights : List ω} (query : Query ω)
      (same : query = .apply (.list operator) (queries operands) weights) :
      Stands index soft bound query
        (.list operator operands weights (some (.since bound (Query.listOn index query))))
  /-- The operands of a scoring operator stand at bounds that admit the same documents. A match that
  is known is the next document; operands that have to agree stand on it. -/
  | scoring {bound : DocumentId} {operator : ScoringOperator} {operands : List (Cursor ω)}
      {weights : List ω} {matched : Option DocumentId} {queries : List (Query ω)}
      (places : List (Standpoint ω)) (of : places.map Prod.snd = queries)
      (each : StandEach index soft places operands)
      (follows : (operator.matching soft).Follows bound
        (places.map (Standpoint.documents index soft)))
      (known : ∀ document, matched = some document →
        IsNext (documentsFrom (Query.documentsOn index soft
          (.apply (.scoring operator) queries weights)) bound) (some document))
      (agreed : operator.matching soft = .all → ∀ document, matched = some document →
        ∀ operand ∈ operands, operand.current? = some document) :
      Stands index soft bound (.apply (.scoring operator) queries weights)
        (.scoring operator operands weights matched (operator.statisticsOn index queries))

/-- Each cursor evaluates the query of its place and stands at the bound there. -/
inductive StandEach (index : Index) (soft : Bool) : List (Standpoint ω) → List (Cursor ω) → Prop
  | nil : StandEach index soft [] []
  | cons {place : Standpoint ω} {cursor : Cursor ω} {places : List (Standpoint ω)}
      {cursors : List (Cursor ω)} (stands : Stands index soft place.1 place.2 cursor)
      (later : StandEach index soft places cursors) :
      StandEach index soft (place :: places) (cursor :: cursors)

end

end Cursor

/-! ## Bounds that admit the same documents -/

namespace Matching

variable {matching : Matching} {bound other : DocumentId}
  {operands : List (DocumentId × Finset DocumentId)}

theorem Follows.congr (follows : matching.Follows bound operands)
    (same : ∀ document ∈ matching.documents (operands.map Prod.snd),
      bound ≤ document ↔ other ≤ document) : matching.Follows other operands := by
  cases matching with
  | any =>
      intro operand member document present
      have among : document ∈ any.documents (operands.map Prod.snd) :=
        mem_documents_any.mpr ⟨operand.2, List.mem_map_of_mem member, present⟩
      exact (same document among).symm.trans (follows operand member document present)
  | all =>
      intro document among
      exact (same document among).symm.trans (follows document among)
  | leading =>
      cases operands with
      | nil => simp [Follows]
      | cons first others =>
          intro operand head document present
          obtain rfl := Option.some.inj head
          exact (same document present).symm.trans (follows first rfl document present)
  | never => trivial

theorem Follows.raise (follows : matching.Follows bound operands) (document : DocumentId) :
    matching.Follows (max bound document)
      (operands.map fun operand => (max operand.1 document, operand.2)) := by
  cases matching with
  | any =>
      intro raised member found present
      obtain ⟨operand, before, rfl⟩ := List.mem_map.mp member
      simp only [max_le_iff, follows operand before found present]
  | all =>
      intro found among
      have unraised : found ∈ all.documents (operands.map Prod.snd) := by
        simpa [Function.comp_def] using among
      have nonempty : ∃ operand, operand ∈ operands :=
        List.exists_mem_of_ne_nil _ (by simpa using (mem_documents_all.mp unraised).1)
      rw [max_le_iff, follows found unraised]
      simp only [List.forall_mem_map, max_le_iff]
      constructor
      · rintro ⟨each, reached⟩ operand member
        exact ⟨each operand member, reached⟩
      · intro each
        obtain ⟨operand, member⟩ := nonempty
        exact ⟨fun other otherMember => (each other otherMember).1, (each operand member).2⟩
  | leading =>
      cases operands with
      | nil => simp [Follows]
      | cons first others =>
          intro operand head found present
          obtain rfl := Option.some.inj head
          simp only [max_le_iff, follows first rfl found present]
  | never => trivial

theorem follows_of_forall_eq (same : ∀ operand ∈ operands, operand.1 = bound) :
    matching.Follows bound operands := by
  cases matching with
  | any =>
      intro operand member document _
      rw [same operand member]
  | all =>
      intro document among
      have nonempty : ∃ operand, operand ∈ operands :=
        List.exists_mem_of_ne_nil _ (by simpa using (mem_documents_all.mp among).1)
      constructor
      · intro reached operand member
        rwa [same operand member]
      · intro each
        obtain ⟨operand, member⟩ := nonempty
        exact same operand member ▸ each operand member
  | leading =>
      intro operand head document _
      rw [same operand (List.mem_of_mem_head? head)]
  | never => trivial

/-- Operands that all stand where the operator does admit the same documents. -/
theorem follows_same {ω : Type} [Arithmetic ω] (matching : Matching) (index : Index) (soft : Bool)
    (bound : DocumentId) (queries : List (Query ω)) :
    matching.Follows bound
      ((queries.map (Prod.mk bound)).map (Standpoint.documents index soft)) := by
  refine follows_of_forall_eq fun operand member => ?_
  simp only [List.map_map, List.mem_map] at member
  obtain ⟨query, -, rfl⟩ := member
  rfl

/-- A document of the operator that its bound admits is admitted by some operand that has it. -/
theorem Follows.exists_admitted (follows : matching.Follows bound operands) {document : DocumentId}
    (present : document ∈ matching.documents (operands.map Prod.snd)) (admitted : bound ≤ document) :
    ∃ operand ∈ operands, document ∈ operand.2.filter (operand.1 ≤ ·) := by
  simp only [Finset.mem_filter]
  cases matching with
  | any =>
      obtain ⟨set, member, among⟩ := mem_documents_any.mp present
      obtain ⟨operand, operandMember, rfl⟩ := List.mem_map.mp member
      exact ⟨operand, operandMember, among,
        (follows operand operandMember document among).mp admitted⟩
  | all =>
      obtain ⟨nonempty, each⟩ := mem_documents_all.mp present
      obtain ⟨operand, member⟩ : ∃ operand, operand ∈ operands :=
        List.exists_mem_of_ne_nil _ (by simpa using nonempty)
      exact ⟨operand, member, each operand.2 (List.mem_map_of_mem member),
        (follows document present).mp admitted operand member⟩
  | leading =>
      cases operands with
      | nil => simp [documents] at present
      | cons first others =>
          exact ⟨first, List.mem_cons_self, present, (follows first rfl document present).mp admitted⟩
  | never => simp [documents] at present

theorem card_documents_any_le (sets : List (Finset DocumentId)) :
    (any.documents sets).card ≤ (sets.map Finset.card).sum := by
  induction sets with
  | nil => simp [documents]
  | cons set later induction =>
      calc
        (any.documents (set :: later)).card ≤ set.card + (any.documents later).card :=
          Finset.card_union_le _ _
        _ ≤ set.card + (later.map Finset.card).sum := Nat.add_le_add_left induction _
        _ = ((set :: later).map Finset.card).sum := by simp

theorem Follows.card_le (follows : matching.Follows bound operands) :
    ((matching.documents (operands.map Prod.snd)).filter (bound ≤ ·)).card ≤
      (operands.map fun operand => (operand.2.filter (operand.1 ≤ ·)).card).sum := by
  have covered : (matching.documents (operands.map Prod.snd)).filter (bound ≤ ·) ⊆
      any.documents (operands.map fun operand => operand.2.filter (operand.1 ≤ ·)) := by
    intro document member
    obtain ⟨present, admitted⟩ := Finset.mem_filter.mp member
    obtain ⟨operand, operandMember, among⟩ := follows.exists_admitted present admitted
    exact mem_documents_any.mpr ⟨_, List.mem_map_of_mem operandMember, among⟩
  refine Nat.le_trans (Finset.card_le_card covered) (Nat.le_trans (card_documents_any_le _) ?_)
  rw [List.map_map]
  exact le_rfl

end Matching

/-! ## Readers -/

namespace Reader

variable {list : InvertedList} {bound : DocumentId}

theorem skip_enter (passed : DocumentId → Bool) (list : InvertedList) (postings : List Posting) :
    (enter list postings).skip passed =
      enter list (postings.dropWhile fun posting => passed posting.document) := by
  cases postings with
  | nil => rfl
  | cons posting later => cases stops : passed posting.document <;> simp [skip, enter, stops]

theorem dropWhile_lt_eq_filter {postings : List Posting} (document : DocumentId)
    (ascending : postings.Pairwise fun earlier later => earlier.document < later.document) :
    (postings.dropWhile fun posting => decide (posting.document < document)) =
      postings.filter fun posting => document ≤ posting.document := by
  induction postings with
  | nil => rfl
  | cons posting later induction =>
      obtain ⟨before, ordered⟩ := List.pairwise_cons.mp ascending
      by_cases passed : posting.document < document
      · rw [List.dropWhile_cons_of_pos (by simpa using passed),
          List.filter_cons_of_neg (by simpa using passed), induction ordered]
      · have reached : document ≤ posting.document := Nat.le_of_not_lt passed
        rw [List.dropWhile_cons_of_neg (by simpa using passed), eq_comm, List.filter_eq_self]
        refine List.forall_mem_cons.mpr ⟨by simpa using reached, fun other member => ?_⟩
        simpa using Nat.le_trans reached (Nat.le_of_lt (before other member))

/-- Skipping the documents before a given one raises the bound to it. -/
theorem skip_since (ascending : list.Ascending) (bound document : DocumentId) :
    (since bound list).skip (fun other => decide (other < document)) =
      since (max bound document) list := by
  have remaining : (list.postings.filter fun posting => bound ≤ posting.document).Pairwise
      fun earlier later => earlier.document < later.document :=
    List.Pairwise.filter _ ascending
  rw [since, skip_enter, dropWhile_lt_eq_filter document remaining, List.filter_filter, since]
  congr 1
  refine List.filter_congr fun posting _ => ?_
  simp [Bool.and_comm]

theorem since_congr {bound other : DocumentId}
    (same : ∀ document ∈ list.documents, bound ≤ document ↔ other ≤ document) :
    since bound list = since other list := by
  rw [since, since]
  congr 1
  refine List.filter_congr fun posting member => ?_
  have present : posting.document ∈ list.documents :=
    InvertedList.mem_documents.mpr ⟨posting, member, rfl⟩
  simp [same posting.document present]

theorem skip_le_eq (document : DocumentId) (reader : Reader) :
    reader.skip (fun other => decide (other ≤ document)) =
      reader.skip fun other => decide (other < document + 1) := by
  simp only [Nat.lt_succ_iff]

@[simp]
theorem since_zero (list : InvertedList) : since 0 list = ofList list := by
  simp [since, ofList]

/-- A reader stands on the next document of its list. -/
theorem isNext_since (ascending : list.Ascending) (bound : DocumentId) :
    IsNext (documentsFrom list.documents bound) (since bound list).current? := by
  have mem_iff : ∀ document, document ∈ documentsFrom list.documents bound ↔
      ∃ posting ∈ list.postings.filter fun posting => bound ≤ posting.document,
        posting.document = document := by
    intro document
    simp only [documentsFrom, Set.mem_ofPred_eq, InvertedList.mem_documents, List.mem_filter,
      decide_eq_true_eq]
    constructor
    · rintro ⟨⟨posting, member, rfl⟩, reached⟩
      exact ⟨posting, ⟨member, reached⟩, rfl⟩
    · rintro ⟨posting, ⟨member, reached⟩, rfl⟩
      exact ⟨⟨posting, member, rfl⟩, reached⟩
  have remaining : (list.postings.filter fun posting => bound ≤ posting.document).Pairwise
      fun earlier later => earlier.document < later.document :=
    List.Pairwise.filter _ ascending
  simp only [current?, posting?, since, enter]
  cases ahead : list.postings.filter fun posting => bound ≤ posting.document with
  | nil =>
      refine Set.eq_empty_of_forall_notMem fun document present => ?_
      simp [mem_iff, ahead] at present
  | cons posting later =>
      rw [ahead] at remaining mem_iff
      obtain ⟨before, -⟩ := List.pairwise_cons.mp remaining
      refine ⟨(mem_iff _).mpr ⟨posting, List.mem_cons_self, rfl⟩, ?_⟩
      intro document present
      obtain ⟨other, member, rfl⟩ := (mem_iff _).mp present
      rcases List.mem_cons.mp member with rfl | member
      · exact le_rfl
      · exact Nat.le_of_lt (before other member)

theorem card_since_le (bound : DocumentId) (list : InvertedList) :
    (list.documents.filter (bound ≤ ·)).card ≤ (since bound list).postings.length := by
  have covered : list.documents.filter (bound ≤ ·) ⊆
      ((since bound list).postings.map (·.document)).toFinset := by
    intro document present
    obtain ⟨member, reached⟩ := Finset.mem_filter.mp present
    obtain ⟨posting, among, rfl⟩ := InvertedList.mem_documents.mp member
    simp only [since, enter, List.mem_toFinset, List.mem_map, List.mem_filter, decide_eq_true_eq]
    exact ⟨posting, ⟨among, reached⟩, rfl⟩
  calc
    (list.documents.filter (bound ≤ ·)).card
        ≤ ((since bound list).postings.map (·.document)).toFinset.card :=
          Finset.card_le_card covered
    _ ≤ ((since bound list).postings.map (·.document)).length := List.toFinset_card_le _
    _ = (since bound list).postings.length := List.length_map _

end Reader

namespace Cursor

variable {ω : Type} [Arithmetic ω] {index : Index} {soft : Bool}

/-! ## What a standing cursor tells -/

mutual

theorem Stands.query_eq {bound : DocumentId} {query : Query ω} {cursor : Cursor ω} :
    Stands index soft bound query cursor → cursor.query = query
  | .term => by simp [Cursor.query]
  | .list _ same => by rw [Cursor.query, same]
  | .scoring _ of each _ _ _ => by rw [Cursor.query, each.queries_eq, of]

theorem StandEach.queries_eq {places : List (Standpoint ω)} {cursors : List (Cursor ω)} :
    StandEach index soft places cursors → queries cursors = places.map Prod.snd
  | .nil => by simp
  | .cons stands later => by
      rw [queries, stands.query_eq, later.queries_eq, List.map_cons]

end

theorem StandEach.length_eq {places : List (Standpoint ω)} {cursors : List (Cursor ω)}
    (each : StandEach index soft places cursors) : cursors.length = places.length := by
  simpa using congrArg List.length each.queries_eq

/-- A cursor with a list stands on the next document of its query. -/
theorem Stands.isNext_current? (ascending : index.Ascending) {bound : DocumentId}
    {query : Query ω} {cursor : Cursor ω} (stands : Stands index soft bound query cursor)
    (isList : cursor.isList = true) :
    IsNext (documentsFrom (query.documentsOn index soft) bound) cursor.current? := by
  have queryIsList : query.isList = true := by
    rw [← stands.query_eq, ← isList_eq]
    exact isList
  rw [Query.documentsOn_of_isList index soft queryIsList]
  cases stands with
  | term => exact Reader.isNext_since (Query.listOn_ascending ascending _) bound
  | list _ _ => exact Reader.isNext_since (Query.listOn_ascending ascending _) bound
  | scoring => simp [Cursor.isList] at isList

/-- A cursor that knows where it stands is on the next document of its query. -/
theorem Stands.isNext_of_current? (ascending : index.Ascending) {bound document : DocumentId}
    {query : Query ω} {cursor : Cursor ω} (stands : Stands index soft bound query cursor)
    (current : cursor.current? = some document) :
    IsNext (documentsFrom (query.documentsOn index soft) bound) (some document) := by
  cases listed : cursor.isList with
  | true => exact current ▸ stands.isNext_current? ascending listed
  | false =>
      cases stands with
      | term => simp [Cursor.isList] at listed
      | list => simp [Cursor.isList] at listed
      | scoring places of each follows known agreed => exact known document current

/-- The bound may be replaced by any other that admits the same documents. -/
theorem Stands.congr {bound other : DocumentId} {query : Query ω} {cursor : Cursor ω}
    (stands : Stands index soft bound query cursor)
    (same : ∀ document ∈ query.documentsOn index soft, bound ≤ document ↔ other ≤ document) :
    Stands index soft other query cursor := by
  cases stands with
  | term =>
      rw [Query.documentsOn_of_isList index soft rfl] at same
      rw [Reader.since_congr same]
      exact .term
  | list query isQuery =>
      subst isQuery
      rw [Query.documentsOn_of_isList index soft rfl] at same
      rw [Reader.since_congr same]
      exact .list _ rfl
  | @scoring _ operator _ weights _ queries places of each follows known agreed =>
      refine .scoring places of each (follows.congr ?_) (fun document matched => ?_) agreed
      · rwa [Standpoint.map_documents, of, ← Query.documentsOn_scoring index soft operator _ weights]
      · have equal : documentsFrom (Query.documentsOn index soft
            (.apply (.scoring operator) queries weights)) other =
            documentsFrom (Query.documentsOn index soft
              (.apply (.scoring operator) queries weights)) bound := by
          ext found
          exact and_congr_right fun present => (same found present).symm
        rw [equal]
        exact known document matched

/-! ## Moving forward raises the bound -/

mutual

theorem Stands.advanceTo (ascending : index.Ascending) (document : DocumentId)
    {bound : DocumentId} {query : Query ω} {cursor : Cursor ω} :
    Stands index soft bound query cursor →
      Stands index soft (max bound document) query (cursor.advanceTo document)
  | .term => by
      rw [Cursor.advanceTo, Option.map_some,
        Reader.skip_since (Query.listOn_ascending ascending _)]
      exact .term
  | .list query same => by
      rw [Cursor.advanceTo, Option.map_some,
        Reader.skip_since (Query.listOn_ascending ascending _)]
      exact .list query same
  | .scoring places of each follows known agreed => by
      rw [Cursor.advanceTo]
      split
      · next far =>
          -- A match that is far enough stays; no document of the operator lies before it.
          obtain ⟨found, rfl, reached⟩ := (Option.any_eq_true _ _).mp far
          have stands := Stands.scoring places of each follows known agreed
          refine stands.congr fun other present => ?_
          have least := (known found rfl).2
          constructor
          · intro admitted
            exact max_le admitted
              (Nat.le_trans (of_decide_eq_true reached) (least ⟨present, admitted⟩))
          · exact fun admitted => Nat.le_trans (le_max_left _ _) admitted
      · refine .scoring (places.map (Standpoint.raise document))
          ((Standpoint.map_raise_snd document places).trans of)
          (each.advanceTo ascending document) ?_ (by simp) (by simp)
        rw [Standpoint.map_raise_documents]
        exact follows.raise document

theorem StandEach.advanceTo (ascending : index.Ascending) (document : DocumentId)
    {places : List (Standpoint ω)} {cursors : List (Cursor ω)} :
    StandEach index soft places cursors →
      StandEach index soft (places.map (Standpoint.raise document))
        (advanceToEach document cursors)
  | .nil => by
      rw [advanceToEach]
      exact .nil
  | .cons stands later => by
      rw [advanceToEach, List.map_cons]
      exact .cons (stands.advanceTo ascending document) (later.advanceTo ascending document)

end

mutual

theorem Stands.advancePast (ascending : index.Ascending) (document : DocumentId)
    {bound : DocumentId} {query : Query ω} {cursor : Cursor ω} :
    Stands index soft bound query cursor →
      Stands index soft (max bound (document + 1)) query (cursor.advancePast document)
  | .term => by
      rw [Cursor.advancePast, Option.map_some, Reader.skip_le_eq,
        Reader.skip_since (Query.listOn_ascending ascending _)]
      exact .term
  | .list query same => by
      rw [Cursor.advancePast, Option.map_some, Reader.skip_le_eq,
        Reader.skip_since (Query.listOn_ascending ascending _)]
      exact .list query same
  | .scoring places of each follows known agreed => by
      rw [Cursor.advancePast]
      refine .scoring (places.map (Standpoint.raise (document + 1)))
        ((Standpoint.map_raise_snd _ places).trans of)
        (each.advancePast ascending document) ?_ (by simp) (by simp)
      rw [Standpoint.map_raise_documents]
      exact follows.raise (document + 1)

theorem StandEach.advancePast (ascending : index.Ascending) (document : DocumentId)
    {places : List (Standpoint ω)} {cursors : List (Cursor ω)} :
    StandEach index soft places cursors →
      StandEach index soft (places.map (Standpoint.raise (document + 1)))
        (advancePastEach document cursors)
  | .nil => by
      rw [advancePastEach]
      exact .nil
  | .cons stands later => by
      rw [advancePastEach, List.map_cons]
      exact .cons (stands.advancePast ascending document) (later.advancePast ascending document)

end

/-! ## An opened cursor stands at the beginning -/

theorem listOn_query (index : Index) (cursor : Cursor ω) :
    cursor.query.listOn index = (cursor.openOn index).invertedList?.getD (.empty .body) := by
  rw [openOn_eq_ofQuery, Query.listOn]

mutual

theorem stands_openOn (index : Index) (soft : Bool) :
    ∀ cursor : Cursor ω, Stands index soft 0 cursor.query (cursor.openOn index)
  | .term text field reader => by
      rw [openOn, ← Reader.since_zero, ← @Query.listOn_term ω _ index text field]
      exact .term
  | .list operator operands weights reader => by
      have opened := listOn_query index (.list operator operands weights reader)
      simp only [openOn, invertedList?, reader?, Option.map_some, Option.getD_some] at opened
      simp only [openOn, ← Reader.since_zero]
      rw [show (materialize _ operator _).1 = _ from opened.symm]
      refine .list _ ?_
      rw [query, queries_materialize, queries_openEachOn]
  | .scoring operator operands weights matched statistics => by
      rw [openOn, query, openEachOn_eq_ofQueries index operands]
      refine .scoring (operands.map fun operand => (0, operand.query)) (by simp)
        ?_ (Matching.follows_of_forall_eq ?_) (by simp) (by simp)
      · rw [← openEachOn_eq_ofQueries index operands]
        exact standEach_openEachOn index soft operands
      · simp [Standpoint.documents]

theorem standEach_openEachOn (index : Index) (soft : Bool) :
    ∀ cursors : List (Cursor ω),
      StandEach index soft (cursors.map fun cursor => (0, cursor.query)) (openEachOn index cursors)
  | [] => by
      rw [openEachOn]
      exact .nil
  | cursor :: later => by
      rw [openEachOn, List.map_cons]
      exact .cons (stands_openOn index soft cursor) (standEach_openEachOn index soft later)

end

/-! ## No more documents are ahead than postings remain -/

mutual

theorem Stands.card_le_remaining {bound : DocumentId} {query : Query ω} {cursor : Cursor ω} :
    Stands index soft bound query cursor →
      ((query.documentsOn index soft).filter (bound ≤ ·)).card ≤ cursor.remaining
  | .term => by
      rw [Query.documentsOn_of_isList index soft rfl, remaining]
      exact Nat.le_succ_of_le (Reader.card_since_le bound _)
  | .list query same => by
      subst same
      rw [Query.documentsOn_of_isList index soft rfl, remaining]
      exact Nat.le_succ_of_le (Reader.card_since_le bound _)
  | .scoring places of each follows _ _ => by
      rw [remaining, Query.documentsOn_scoring, ← of, ← Standpoint.map_documents]
      refine Nat.le_succ_of_le (Nat.le_trans follows.card_le ?_)
      rw [List.map_map]
      exact each.sum_card_le_remaining

theorem StandEach.sum_card_le_remaining {places : List (Standpoint ω)}
    {cursors : List (Cursor ω)} :
    StandEach index soft places cursors →
      (places.map fun place =>
        ((place.2.documentsOn index soft).filter (place.1 ≤ ·)).card).sum ≤ remainingEach cursors
  | .nil => by simp
  | .cons stands later => by
      rw [List.map_cons, List.sum_cons, remainingEach]
      exact Nat.add_le_add stands.card_le_remaining later.sum_card_le_remaining

end

end Cursor

end Retrieval
