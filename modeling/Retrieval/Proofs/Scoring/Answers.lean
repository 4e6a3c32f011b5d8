import Mathlib.Data.List.Nodup
import Retrieval.Proofs.Cursor.Search
import Retrieval.Proofs.Scoring.ByDocument

/-!
# Scores of standing cursors

A cursor that stands on a document answers with the score that the document has without any cursor,
and scoring leaves it where it was. The operands of a match need not stand on it: those of a
conjunction do, those of the other operators may have been left behind or have run ahead. But all of
them stand where no document of theirs lies between, so each can be taken to stand at the match itself.
-/

namespace Retrieval

/-- The posting of a document in an ascending list is the only one. -/
theorem InvertedList.Ascending.find?_eq {list : InvertedList} (ascending : list.Ascending)
    {posting : Posting} (member : posting ∈ list.postings) :
    list.postings.find? (·.document == posting.document) = some posting := by
  have distinct : (list.postings.map (·.document)).Nodup :=
    List.pairwise_map.mpr (ascending.imp Nat.ne_of_lt)
  cases found : list.postings.find? (·.document == posting.document) with
  | none =>
      have absent := List.find?_eq_none.mp found posting member
      simp at absent
  | some other =>
      have same : other.document = posting.document := by
        simpa using List.find?_some found
      exact congrArg some
        (List.inj_on_of_nodup_map distinct (List.mem_of_find?_eq_some found) member same)

theorem IsNext.bound_iff {documents : Finset DocumentId} {bound document : DocumentId}
    (next : IsNext (documentsFrom documents bound) (some document)) {other : DocumentId}
    (present : other ∈ documents) : bound ≤ other ↔ document ≤ other := by
  constructor
  · exact fun admitted => next.2 ⟨present, admitted⟩
  · exact fun beyond => Nat.le_trans next.1.2 beyond

namespace Reader

/-- A reader at a document of its list stands on the posting of that document. -/
theorem posting?_since {list : InvertedList} (ascending : list.Ascending) {document : DocumentId}
    (present : document ∈ list.documents) :
    (since document list).posting? = list.postings.find? (·.document == document) := by
  obtain ⟨least, current, below⟩ :=
    (isNext_since ascending document).exists_of_mem ⟨present, le_rfl⟩
  have here : least = document :=
    Nat.le_antisymm below ((isNext_since ascending document).mem current).2
  subst here
  obtain ⟨posting, head, rfl⟩ := Option.map_eq_some_iff.mp current
  have member : posting ∈ list.postings := by
    have among : posting ∈ (since posting.document list).postings := List.mem_of_mem_head? head
    exact (List.mem_filter.mp among).1
  rw [head, ascending.find?_eq member]

end Reader

namespace Cursor

variable {ω : Type} [Arithmetic ω] {index : Index} {soft : Bool}

/-! ## What a cursor reads off its list -/

theorem listOn_of_not_isList {query : Query ω} (scoring : query.isList = false) :
    query.listOn index = .empty .body := by
  cases query with
  | term => simp [Query.isList] at scoring
  | apply operator operands weights =>
      cases operator with
      | list => simp [Query.isList, Operator.isList] at scoring
      | scoring operator => simp [Query.listOn, ofQuery, openOn, invertedList?, reader?]

/-- A number that an empty list does not have is read off the list of the query. -/
theorem Stands.elim_invertedList? {bound : DocumentId} {query : Query ω} {cursor : Cursor ω}
    (stands : Stands index soft bound query cursor) {number : InvertedList → Nat}
    (zero : number (.empty .body) = 0) :
    cursor.invertedList?.elim 0 number = number (query.listOn index) := by
  cases stands with
  | term => rfl
  | list => rfl
  | scoring => rw [listOn_of_not_isList rfl, zero]; rfl

/-- A cursor that stands on a document reads how often the list of the query has it. -/
theorem Stands.frequency_eq (ascending : index.Ascending) {document : DocumentId} {query : Query ω}
    {cursor : Cursor ω} (stands : Stands index soft document query cursor)
    (present : document ∈ query.documentsOn index soft) :
    cursor.frequency = (query.listOn index).frequencyAt document := by
  cases stands with
  | term =>
      rw [Query.documentsOn_of_isList index soft rfl] at present
      rw [InvertedList.frequencyAt,
        ← Reader.posting?_since (Query.listOn_ascending ascending _) present]
      rfl
  | list query same =>
      subst same
      rw [Query.documentsOn_of_isList index soft rfl] at present
      rw [InvertedList.frequencyAt,
        ← Reader.posting?_since (Query.listOn_ascending ascending _) present]
      rfl
  | scoring =>
      rw [listOn_of_not_isList rfl]
      rfl

theorem Stands.smoothedProbability_eq {bound document : DocumentId} {query : Query ω}
    {cursor : Cursor ω} (stands : Stands index soft bound query cursor) (parameters : Indri ω)
    (frequency : Nat) :
    cursor.smoothedProbability index parameters document frequency =
      query.smoothedAt index parameters document frequency := by
  cases length_eq : index.fieldLength query.field document with
  | error cause =>
      simp only [smoothedProbability, Query.smoothedAt, field_eq, stands.query_eq, length_eq]
  | ok length =>
      simp only [smoothedProbability, Query.smoothedAt, field_eq, stands.query_eq, length_eq]
      rw [stands.elim_invertedList? rfl]

theorem Stands.listScore_eq (ascending : index.Ascending) (model : Model ω) {document : DocumentId}
    {query : Query ω} {cursor : Cursor ω} (stands : Stands index soft document query cursor)
    (present : document ∈ query.documentsOn index soft) :
    cursor.listScore index model document = query.listScoreAt index model document := by
  have same := stands.frequency_eq ascending present
  cases model with
  | unrankedBoolean => rfl
  | rankedBoolean => rw [listScore, Query.listScoreAt, same]
  | indri parameters =>
      rw [listScore, Query.listScoreAt, same]
      exact stands.smoothedProbability_eq parameters _
  | bm25 parameters => rfl

theorem Stands.termScore_eq (ascending : index.Ascending) (parameters : Bm25 ω)
    {document : DocumentId} {query : Query ω} {cursor : Cursor ω}
    (stands : Stands index soft document query cursor)
    (present : document ∈ query.documentsOn index soft) (queryFrequency : Nat) :
    cursor.termScore index parameters (Arithmetic.ofNat index.documentCount)
        ⟨queryFrequency, SumStatistics.meanLength index query.field⟩ document =
      query.termScoreAt index parameters document queryFrequency := by
  cases length_eq : index.fieldLength query.field document with
  | error cause => simp only [termScore, Query.termScoreAt, field_eq, stands.query_eq, length_eq]
  | ok length =>
      simp only [termScore, Query.termScoreAt, field_eq, stands.query_eq, length_eq,
        stands.frequency_eq ascending present]
      rw [stands.elim_invertedList? rfl]

mutual

/-- The default score does not depend on where a cursor stands. -/
theorem Stands.defaultScore_eq (model : Model ω) (document : DocumentId) {bound : DocumentId}
    {query : Query ω} {cursor : Cursor ω} :
    Stands index soft bound query cursor →
      cursor.defaultScore index model document = query.defaultAt index model document
  | .term => by cases model <;> rfl
  | .list query same => by
      have stands : @Stands ω _ index soft bound _ _ := .list query same
      subst same
      cases model with
      | indri parameters => exact stands.smoothedProbability_eq parameters 0
      | unrankedBoolean => rfl
      | rankedBoolean => rfl
      | bm25 parameters => rfl
  | @Stands.scoring _ _ _ _ _ operator _ _ _ _ places of each _ _ _ => by
      have defaults := each.defaultScores_eq model document
      rw [of] at defaults
      rw [defaultScore.eq_def, Query.defaultAt.eq_def]
      cases model with
      | indri parameters =>
          cases operator with
          | score =>
              subst of
              cases each with
              | nil => rfl
              | cons stands later => exact stands.smoothedProbability_eq parameters 0
          | and => exact congrArg (Except.map _) defaults
          | or => exact congrArg (Except.map _) defaults
          | wand => exact congrArg (Except.map _) defaults
          | wsum => exact congrArg (Except.map _) defaults
          | sum => rfl
          | not => rfl
      | unrankedBoolean => rfl
      | rankedBoolean => rfl
      | bm25 parameters => rfl

theorem StandEach.defaultScores_eq (model : Model ω) (document : DocumentId)
    {places : List (Standpoint ω)} {cursors : List (Cursor ω)} :
    StandEach index soft places cursors →
      defaultScores index model document cursors =
        Query.defaultsAt index model document (places.map Prod.snd)
  | .nil => by rw [defaultScores, List.map_nil, Query.defaultsAt]
  | .cons stands later => by
      rw [defaultScores, List.map_cons, Query.defaultsAt, stands.defaultScore_eq model document,
        later.defaultScores_eq model document]

end

/-! ## Asking cursors that stand at a document -/

/-- A cursor that stands at a document has given an answer about it, and stands there as before. -/
structure Answered (index : Index) (soft : Bool) (document : DocumentId) (query : Query ω) {α : Type}
    (answer : Except Error α) (before : Cursor ω) (result : Except Error α × Cursor ω) : Prop where
  /-- The bound is still the document. -/
  stands : Stands index soft document query result.2
  /-- A cursor on the document stays on it. -/
  kept : before.current? = some document → result.2.current? = some document
  /-- The answer is the right one. -/
  answer : result.1 = answer

/-- Cursors that all stand at a document have given an answer about it, and stand there as before. -/
structure AnsweredEach (index : Index) (soft : Bool) (document : DocumentId)
    (queries : List (Query ω)) {α : Type} (answer : Except Error α) (before : List (Cursor ω))
    (result : Except Error α × List (Cursor ω)) : Prop where
  /-- The bounds are still the document. -/
  stands : StandEach index soft (queries.map (Prod.mk document)) result.2
  /-- Cursors on the document stay on it. -/
  kept : (∀ cursor ∈ before, cursor.current? = some document) →
    ∀ cursor ∈ result.2, cursor.current? = some document
  /-- The answer is the right one. -/
  answer : result.1 = answer

variable {document : DocumentId} {queries : List (Query ω)} {cursors : List (Cursor ω)}

theorem AnsweredEach.map {α β : Type} {answer : Except Error α}
    {result : Except Error α × List (Cursor ω)} (change : α → β)
    (answered : AnsweredEach index soft document queries answer cursors result) :
    AnsweredEach index soft document queries (answer.map change) cursors
      (result.1.map change, result.2) :=
  ⟨answered.stands, answered.kept, congrArg (Except.map change) answered.answer⟩

theorem StandEach.unasked {α : Type}
    (each : StandEach index soft (queries.map (Prod.mk document)) cursors)
    (answer : Except Error α) :
    AnsweredEach index soft document queries answer cursors (answer, cursors) :=
  ⟨each, fun standOn => standOn, rfl⟩

/-- The first failure is the answer. -/
theorem Answered.fail {α : Type} {query : Query ω} {cursor moved : Cursor ω} {answer : Except Error α}
    {answers : Except Error (List α)} {cause : Error}
    (head : Answered index soft document query answer cursor (.error cause, moved))
    (later : StandEach index soft (queries.map (Prod.mk document)) cursors) :
    AnsweredEach index soft document (query :: queries)
      (do return (← answer) :: (← answers)) (cursor :: cursors) (.error cause, moved :: cursors) := by
  refine ⟨.cons head.stands later, fun standOn => ?_, ?_⟩
  · obtain ⟨first, others⟩ := List.forall_mem_cons.mp standOn
    exact List.forall_mem_cons.mpr ⟨head.kept first, others⟩
  · rw [← head.answer]
    rfl

theorem Answered.cons {α : Type} {query : Query ω} {cursor moved : Cursor ω} {answer : Except Error α}
    {answers : Except Error (List α)} {found : α} {result : Except Error (List α) × List (Cursor ω)}
    (head : Answered index soft document query answer cursor (.ok found, moved))
    (tail : AnsweredEach index soft document queries answers cursors result) :
    AnsweredEach index soft document (query :: queries)
      (do return (← answer) :: (← answers)) (cursor :: cursors)
      (result.1.map (found :: ·), moved :: result.2) := by
  refine ⟨.cons head.stands tail.stands, fun standOn => ?_, ?_⟩
  · obtain ⟨first, others⟩ := List.forall_mem_cons.mp standOn
    exact List.forall_mem_cons.mpr ⟨head.kept first, tail.kept others⟩
  · rw [← head.answer, ← tail.answer]
    cases result.1 <;> rfl

theorem StandEach.askEach {α : Type} {ask : Cursor ω → Except Error α × Cursor ω}
    {answer : Query ω → Except Error α}
    (each : StandEach index soft (queries.map (Prod.mk document)) cursors)
    (asked : ∀ query ∈ queries, ∀ cursor ∈ cursors, Stands index soft document query cursor →
      Answered index soft document query (answer query) cursor (ask cursor)) :
    AnsweredEach index soft document queries (queries.mapM answer) cursors
      (Cursor.askEach ask cursors) := by
  induction queries generalizing cursors with
  | nil =>
      cases each
      exact ⟨.nil, fun standOn => standOn, rfl⟩
  | cons query queries induction =>
      cases each with
      | @cons _ cursor _ cursors stands later =>
          have head := asked query List.mem_cons_self cursor List.mem_cons_self stands
          have tail := induction later fun query queryMember cursor cursorMember =>
            asked query (List.mem_cons_of_mem _ queryMember) cursor
              (List.mem_cons_of_mem _ cursorMember)
          rw [Cursor.askEach, List.mapM_cons]
          rcases result : ask cursor with ⟨cause | found, moved⟩
          · rw [result] at head
            exact head.fail later
          · rw [result] at head
            exact head.cons tail

theorem StandEach.askEachWith {α β : Type} {ask : β → Cursor ω → Except Error α × Cursor ω}
    {answer : β → Query ω → Except Error α} {known : List β}
    (sameLength : known.length = queries.length)
    (each : StandEach index soft (queries.map (Prod.mk document)) cursors)
    (asked : ∀ fact query, (fact, query) ∈ known.zip queries → ∀ cursor ∈ cursors,
      Stands index soft document query cursor →
      Answered index soft document query (answer fact query) cursor (ask fact cursor)) :
    AnsweredEach index soft document queries
      ((known.zip queries).mapM fun (fact, query) => answer fact query) cursors
      (Cursor.askEachWith ask known cursors) := by
  induction queries generalizing cursors known with
  | nil =>
      cases each
      obtain rfl := List.length_eq_zero_iff.mp sameLength
      exact ⟨.nil, fun standOn => standOn, rfl⟩
  | cons query queries induction =>
      cases known with
      | nil => simp at sameLength
      | cons fact known =>
          cases each with
          | @cons _ cursor _ cursors stands later =>
              have head := asked fact query List.mem_cons_self cursor List.mem_cons_self stands
              have tail := induction (by simpa using sameLength) later
                fun fact query pair cursor cursorMember =>
                  asked fact query (List.mem_cons_of_mem _ pair) cursor
                    (List.mem_cons_of_mem _ cursorMember)
              rw [Cursor.askEachWith, List.zip_cons_cons, List.mapM_cons]
              rcases result : ask fact cursor with ⟨cause | found, moved⟩
              · rw [result] at head
                exact head.fail later
              · rw [result] at head
                exact head.cons tail

/-! ## Operands that may be absent -/

section Presence

variable {model : Model ω} {query : Query ω} {cursor : Cursor ω}
  {score : Cursor ω → Except Error ω × Cursor ω}

/-- The function scores the query on every document on which a cursor of it stands. -/
def AnswersScore (index : Index) (model : Model ω) (score : Cursor ω → Except Error ω × Cursor ω)
    (query : Query ω) : Prop :=
  ∀ {document : DocumentId} {cursor : Cursor ω},
    Stands index model.isSoft document query cursor → cursor.current? = some document →
      Answered index model.isSoft document query (query.scoreAt index model document) cursor
        (score cursor)

/-- A cursor at a document, settled, stands on it exactly if the query has the document. -/
theorem Stands.settleOn (ascending : index.Ascending)
    (stands : Stands index model.isSoft document query cursor) :
    ∃ settled, cursor.settleOn model document =
        (decide (document ∈ query.documentsOn index model.isSoft), settled) ∧
      Stands index model.isSoft document query settled ∧
      (document ∈ query.documentsOn index model.isSoft → settled.current? = some document) := by
  obtain ⟨-, standing, next⟩ := stands.settle ascending
  have standOn : document ∈ query.documentsOn index model.isSoft →
      (cursor.settle model.isSoft).current? = some document := by
    intro present
    obtain ⟨least, current, below⟩ := next.exists_of_mem ⟨present, le_rfl⟩
    rw [current, Nat.le_antisymm below (next.mem current).2]
  refine ⟨cursor.settle model.isSoft, ?_, standing, standOn⟩
  rw [Cursor.settleOn, Prod.mk.injEq]
  refine ⟨?_, rfl⟩
  by_cases present : document ∈ query.documentsOn index model.isSoft
  · simp [standOn present, present]
  · have absent : (cursor.settle model.isSoft).current? ≠ some document :=
      fun current => present (next.mem current).1
    simp [absent, present]

theorem Stands.mem_of_current? (ascending : index.Ascending) {bound : DocumentId}
    (stands : Stands index soft bound query cursor) (current : cursor.current? = some document) :
    document ∈ query.documentsOn index soft :=
  (stands.isNext_of_current? ascending current).1.1

theorem Stands.scoreIfPresent (ascending : index.Ascending)
    (scores : AnswersScore index model score query)
    (stands : Stands index model.isSoft document query cursor) :
    Answered index model.isSoft document query
      (if document ∈ query.documentsOn index model.isSoft then
        (query.scoreAt index model document).map some else .ok none)
      cursor (Cursor.scoreIfPresent score model document cursor) := by
  obtain ⟨settled, equal, standing, standOn⟩ := stands.settleOn ascending
  rw [Cursor.scoreIfPresent, equal]
  by_cases present : document ∈ query.documentsOn index model.isSoft
  · have scored := scores standing (standOn present)
    simp only [present, decide_true, if_true]
    exact ⟨scored.stands, fun _ => scored.kept (standOn present), by rw [scored.answer]⟩
  · simp only [present, decide_false, if_false]
    exact ⟨standing, fun current => absurd (stands.mem_of_current? ascending current) present, rfl⟩

theorem Stands.scoreOrDefault (ascending : index.Ascending)
    (scores : AnswersScore index model score query)
    (stands : Stands index model.isSoft document query cursor) :
    Answered index model.isSoft document query
      (if document ∈ query.documentsOn index model.isSoft then query.scoreAt index model document
        else query.defaultAt index model document)
      cursor (Cursor.scoreOrDefault score index model document cursor) := by
  obtain ⟨settled, equal, standing, standOn⟩ := stands.settleOn ascending
  rw [Cursor.scoreOrDefault, equal]
  by_cases present : document ∈ query.documentsOn index model.isSoft
  · have scored := scores standing (standOn present)
    simp only [present, decide_true, if_true]
    exact ⟨scored.stands, fun _ => scored.kept (standOn present), scored.answer⟩
  · simp only [present, decide_false, if_false]
    exact ⟨standing, fun current => absurd (stands.mem_of_current? ascending current) present,
      standing.defaultScore_eq model document⟩

/-- A cursor on a document stands for the same list in a sum as its query does. -/
theorem Stands.listOf (ascending : index.Ascending)
    (stands : Stands index soft document query cursor) (current : cursor.current? = some document) :
    (SumStatistics.listOf cursor = none ∧ query.summand? = none) ∨
      ∃ present summand, SumStatistics.listOf cursor = some present ∧
        query.summand? = some summand ∧ Stands index soft document summand present ∧
        document ∈ summand.documentsOn index soft := by
  have member := stands.mem_of_current? ascending current
  cases stands with
  | term => exact .inr ⟨_, _, rfl, rfl, .term, member⟩
  | list query same =>
      subst same
      exact .inr ⟨_, _, rfl, rfl, .list _ rfl, member⟩
  | @scoring _ operator operands weights matched queries places of each follows known agreed =>
      subst of
      cases operator with
      | score =>
          cases each with
          | nil => exact .inl ⟨rfl, rfl⟩
          | @cons place first places others stands later =>
              have sameKind : place.2.isList = first.isList := by
                rw [isList_eq, stands.query_eq]
              cases listed : first.isList with
              | false =>
                  refine .inl ⟨by simp [SumStatistics.listOf, listed], ?_⟩
                  simp [Query.summand?, sameKind, listed]
              | true =>
                  refine .inr ⟨first, place.2, by simp [SumStatistics.listOf, listed],
                    by simp [Query.summand?, sameKind, listed], ?_, ?_⟩
                  · exact stands.congr fun other present => (follows _ rfl other present).symm
                  · rw [Query.documentsOn_scoring] at member
                    exact member
      | and => exact .inl ⟨rfl, rfl⟩
      | or => exact .inl ⟨rfl, rfl⟩
      | sum => exact .inl ⟨rfl, rfl⟩
      | wand => exact .inl ⟨rfl, rfl⟩
      | wsum => exact .inl ⟨rfl, rfl⟩
      | not => exact .inl ⟨rfl, rfl⟩

theorem Stands.scoreInSum (ascending : index.Ascending) (parameters : Bm25 ω) (frequency : Nat)
    (scores : AnswersScore index model score query)
    (stands : Stands index model.isSoft document query cursor) :
    Answered index model.isSoft document query
      (if document ∈ query.documentsOn index model.isSoft then
        query.addendAt index parameters document (query.scoreAt index model document) frequency
        else .ok none)
      cursor
      (Cursor.scoreInSum score index model parameters (Arithmetic.ofNat index.documentCount) document
        (query.statisticsAt index frequency) cursor) := by
  obtain ⟨settled, equal, standing, standOn⟩ := stands.settleOn ascending
  rw [Cursor.scoreInSum, equal]
  by_cases present : document ∈ query.documentsOn index model.isSoft
  · simp only [present, decide_true, if_true]
    have scored := scores standing (standOn present)
    rcases standing.listOf ascending (standOn present) with
      ⟨noList, noSummand⟩ | ⟨found, summand, isFound, isSummand, standFound, member⟩
    · rw [noList, Query.addendAt, noSummand]
      exact ⟨scored.stands, fun _ => scored.kept (standOn present), by rw [scored.answer]⟩
    · rw [isFound, Query.addendAt, Query.statisticsAt, isSummand]
      simp only [Option.elim_some, standFound.termScore_eq ascending parameters member]
      split
      · exact ⟨standing, fun _ => standOn present, rfl⟩
      · exact ⟨standing, fun _ => standOn present, rfl⟩
  · simp only [present, decide_false, if_false]
    exact ⟨standing, fun current => absurd (stands.mem_of_current? ascending current) present, rfl⟩

end Presence

end Cursor

end Retrieval
