import Retrieval.Proofs.Scoring.Answers

/-!
# Scores of matches

An operator that has found its match asks its operands, which all stand at the match, and combines
their answers as it does without cursors. By induction on the height of the query this gives the score
of every match, and with it the end of the scoring.
-/

namespace Retrieval

/-! ## Failures in a row of answers -/

private theorem map_map_except {α β γ : Type} (inner : α → β) (outer : β → γ)
    (answer : Except Error α) : (answer.map inner).map outer = answer.map (outer ∘ inner) := by
  cases answer <;> rfl

private theorem map_zip_self {α β γ : Type} (change : α × β → γ) {left : List α} {right : List β}
    (sameLength : left.length = right.length) :
    ((left.zip right).map change).zip left =
      (left.zip right).map fun pair => (change pair, pair.1) := by
  rw [← List.zip_map', List.map_fst_zip (Nat.le_of_eq sameLength)]

/-- The answers that have been given, or the first failure. -/
private def given {β : Type} (answers : Except Error (List (Option β))) : Except Error (List β) :=
  answers.map fun answers => answers.filterMap id

private theorem given_cons {β : Type} (found : Option β)
    (answers : Except Error (List (Option β))) :
    given (do return found :: (← answers)) = (given answers).map (found.toList ++ ·) := by
  cases answers with
  | error cause => rfl
  | ok later => cases found <;> rfl

/-- Leaving items out beforehand is as good as answering nothing for them. -/
private theorem mapM_filter {α β : Type} (counts : α → Bool)
    (answer : α → Except Error (Option β)) (items : List α) :
    given (items.mapM fun item => if counts item then answer item else .ok none) =
      given ((items.filter counts).mapM answer) := by
  induction items with
  | nil => rfl
  | cons item items induction =>
      rw [List.mapM_cons]
      cases counted : counts item with
      | false =>
          rw [List.filter_cons_of_neg (by simp [counted]), ← induction]
          refine (given_cons none _).trans ?_
          cases given _ <;> rfl
      | true =>
          rw [List.filter_cons_of_pos counted, List.mapM_cons]
          cases answer item with
          | error cause => rfl
          | ok found =>
              refine (given_cons found _).trans ?_
              rw [induction]
              exact (given_cons found _).symm

private theorem mapM_some {α β : Type} (answer : α → Except Error β) (items : List α) :
    given (items.mapM fun item => (answer item).map some) = items.mapM answer := by
  induction items with
  | nil => rfl
  | cons item items induction =>
      rw [List.mapM_cons, List.mapM_cons, ← induction]
      cases answer item with
      | error cause => rfl
      | ok found => exact given_cons (some found) _

namespace Query

variable {ω : Type} [Arithmetic ω] (index : Index) (model : Model ω) (document : DocumentId)

/-- The scores of the operands that have the document. -/
theorem presentAt_eq_mapM (soft : Bool) (queries : List (Query ω)) :
    presentAt index soft document (scoresAt index model document queries) =
      (queries.filter fun query => document ∈ query.documentsOn index soft).mapM
        (scoreAt index model document) := by
  rw [scoresAt_eq_map, presentAt, List.filter_map, List.mapM_map]
  rfl

private theorem presentAt_scoresAt (soft : Bool) (queries : List (Query ω)) :
    presentAt index soft document (scoresAt index model document queries) =
      given (queries.mapM fun query =>
        if document ∈ query.documentsOn index soft then
          (query.scoreAt index model document).map some else .ok none) := by
  have filtered := mapM_filter (fun query => decide (document ∈ documentsOn index soft query))
    (fun query => (scoreAt index model document query).map some) queries
  simp only [decide_eq_true_eq] at filtered
  rw [presentAt_eq_mapM, filtered, mapM_some]

theorem presentOrDefaultAt_scoresAt (queries : List (Query ω)) :
    presentOrDefaultAt index model document (scoresAt index model document queries) =
      queries.mapM fun query =>
        if document ∈ query.documentsOn index model.isSoft then query.scoreAt index model document
        else query.defaultAt index model document := by
  rw [scoresAt_eq_map, presentOrDefaultAt, List.mapM_map]
  rfl

/-- What the operands that have the document add to a sum, each beside its number of occurrences. -/
theorem addendsAt_eq_mapM (soft : Bool) (parameters : Bm25 ω) (queries : List (Query ω)) :
    let counted : List (Query ω × Nat) := queries.zip (queryFrequencies queries)
    let present := counted.filter fun (query, _) => document ∈ query.documentsOn index soft
    addendsAt index soft parameters document (scoresAt index model document queries) =
      Except.map (List.filterMap id) (present.mapM fun (query, frequency) =>
        query.addendAt index parameters document (query.scoreAt index model document) frequency) := by
  intro counted present
  have firsts : (queries.map fun query => (query, query.scoreAt index model document)).map
      Prod.fst = queries := by
    rw [List.map_map]
    exact List.map_id _
  rw [scoresAt_eq_map, addendsAt, firsts, List.zip_map_left, List.filter_map, List.mapM_map]
  rfl

private theorem addendsAt_scoresAt (soft : Bool) (parameters : Bm25 ω) (queries : List (Query ω)) :
    addendsAt index soft parameters document (scoresAt index model document queries) =
      given ((queries.zip (queryFrequencies queries)).mapM fun (query, frequency) =>
        if document ∈ query.documentsOn index soft then
          query.addendAt index parameters document (query.scoreAt index model document) frequency
        else .ok none) := by
  have filtered := mapM_filter (fun (query, _) => decide (document ∈ documentsOn index soft query))
    (fun (query, frequency) =>
      addendAt index parameters document query (scoreAt index model document query) frequency)
    (queries.zip (queryFrequencies queries))
  simp only [decide_eq_true_eq] at filtered
  rw [addendsAt_eq_mapM, filtered]
  rfl

/-! ## The statistics of sums -/

theorem length_queryFrequencies (queries : List (Query ω)) :
    (queryFrequencies queries).length = queries.length := by
  simp [queryFrequencies]

end Query

namespace SumStatistics

variable {ω : Type}

theorem map_query_listOf (cursor : Cursor ω) :
    (listOf cursor).map Cursor.query = cursor.query.summand? := by
  cases cursor with
  | term => rfl
  | list => rfl
  | scoring operator operands weights matched statistics =>
      cases operator with
      | score =>
          cases operands with
          | nil => rfl
          | cons first others =>
              simp only [listOf, Cursor.query, Cursor.queries, Query.summand?, Cursor.isList_eq]
              split <;> rfl
      | and | or | sum | wand | wsum | not => rfl

variable [Arithmetic ω]

/-- The statistics of a sum depend on the queries of its operands alone. -/
theorem operands_ofOperands (index : Index) (cursors : List (Cursor ω)) :
    (ofOperands index cursors).operands =
      ((Cursor.queries cursors).zip (Query.queryFrequencies (Cursor.queries cursors))).map
        fun (query, frequency) => query.statisticsAt index frequency := by
  have key_eq : ∀ cursor : Cursor ω, (listOf cursor).map (fun present => present.query.write) =
      cursor.query.summand?.map Query.write := by
    intro cursor
    rw [← map_query_listOf, Option.map_map]
    rfl
  have meanLength_eq : ∀ cursor : Cursor ω,
      ((listOf cursor).elim 0 fun present => (meanLength index present.field : ω)) =
        cursor.query.summand?.elim 0 fun summand => meanLength index summand.field := by
    intro cursor
    rw [← map_query_listOf, Option.elim_map]
    simp [Cursor.field_eq, Function.comp_def]
  refine List.ext_getElem ?_ fun place _ _ => ?_
  · simp [ofOperands, Query.queryFrequencies]
  · simp [ofOperands, Query.queryFrequencies, Query.statisticsAt, Function.comp_def, key_eq,
      meanLength_eq]

end SumStatistics

namespace Cursor

variable {ω : Type} [Arithmetic ω] {index : Index} {model : Model ω} {document : DocumentId}
  {queries : List (Query ω)} {operands : List (Cursor ω)}
  {score : Cursor ω → Except Error ω × Cursor ω}

/-! ## Scores of operators -/

private theorem StandEach.scorePresent (ascending : index.Ascending)
    (scores : ∀ query ∈ queries, AnswersScore index model score query)
    (each : StandEach index model.isSoft (queries.map (Prod.mk document)) operands)
    (merge : List ω → ω) :
    AnsweredEach index model.isSoft document queries
      ((Query.presentAt index model.isSoft document
        (Query.scoresAt index model document queries)).map merge) operands
      ((Cursor.askEach (scoreIfPresent score model document) operands).1.map
        fun scores => merge (scores.filterMap id),
        (Cursor.askEach (scoreIfPresent score model document) operands).2) := by
  have answered := each.askEach fun query member cursor _ stands =>
    Stands.scoreIfPresent ascending (scores query member) stands
  have merged := answered.map fun scores => merge (scores.filterMap id)
  rw [Query.presentAt_scoresAt, given, map_map_except]
  exact merged

private theorem StandEach.scorePresentOrDefault (ascending : index.Ascending)
    (scores : ∀ query ∈ queries, AnswersScore index model score query)
    (each : StandEach index model.isSoft (queries.map (Prod.mk document)) operands)
    (merge : List ω → ω) :
    AnsweredEach index model.isSoft document queries
      ((Query.presentOrDefaultAt index model document
        (Query.scoresAt index model document queries)).map merge) operands
      ((Cursor.askEach (scoreOrDefault score index model document) operands).1.map merge,
        (Cursor.askEach (scoreOrDefault score index model document) operands).2) := by
  have answered := each.askEach fun query member cursor _ stands =>
    Stands.scoreOrDefault ascending (scores query member) stands
  rw [Query.presentOrDefaultAt_scoresAt]
  exact answered.map merge

private theorem StandEach.scoreAddends (ascending : index.Ascending)
    (scores : ∀ query ∈ queries, AnswersScore index model score query) (parameters : Bm25 ω)
    (each : StandEach index model.isSoft (queries.map (Prod.mk document)) operands)
    (merge : List ω → ω) :
    let statistics := SumStatistics.ofOperands index (openEachOn index (ofQueries queries))
    let ask := scoreInSum score index model parameters statistics.documents document
    AnsweredEach index model.isSoft document queries
      ((Query.addendsAt index model.isSoft parameters document
        (Query.scoresAt index model document queries)).map merge) operands
      ((Cursor.askEachWith ask statistics.operands operands).1.map
        fun scores => merge (scores.filterMap id),
        (Cursor.askEachWith ask statistics.operands operands).2) := by
  intro statistics ask
  let counted := queries.zip (Query.queryFrequencies queries)
  have operands_eq : statistics.operands =
      counted.map fun (query, frequency) => query.statisticsAt index frequency := by
    have opened : Cursor.queries (openEachOn index (ofQueries queries)) = queries := by
      rw [queries_openEachOn, queries_ofQueries]
    rw [SumStatistics.operands_ofOperands, opened]
  have pairs_eq : statistics.operands.zip queries =
      counted.map fun (query, frequency) => (query.statisticsAt index frequency, query) := by
    rw [operands_eq]
    exact map_zip_self _ (Query.length_queryFrequencies queries).symm
  let answer (fact : OperandStatistics ω) (query : Query ω) : Except Error (Option ω) :=
    if document ∈ query.documentsOn index model.isSoft then
      query.addendAt index parameters document (query.scoreAt index model document)
        fact.queryFrequency
    else .ok none
  have sameLength : statistics.operands.length = queries.length := by
    simp [operands_eq, counted, Query.length_queryFrequencies]
  have asked : ∀ fact query, (fact, query) ∈ statistics.operands.zip queries →
      ∀ cursor ∈ operands, Stands index model.isSoft document query cursor →
      Answered index model.isSoft document query (answer fact query) cursor (ask fact cursor) := by
    intro fact query pair cursor _ stands
    rw [pairs_eq] at pair
    obtain ⟨⟨counted, frequency⟩, member, same⟩ := List.mem_map.mp pair
    obtain ⟨rfl, rfl⟩ := Prod.mk.inj same
    exact stands.scoreInSum ascending parameters frequency
      (scores counted (List.of_mem_zip member).1)
  have answered := (each.askEachWith sameLength asked).map fun scores => merge (scores.filterMap id)
  rw [pairs_eq, List.mapM_map] at answered
  rw [Query.addendsAt_scoresAt, given, map_map_except]
  exact answered

/-- A scoring operator whose operands stand at its match scores the match as it does without
cursors. -/
theorem StandEach.scoreOperands (ascending : index.Ascending)
    (scores : ∀ query ∈ queries, AnswersScore index model score query)
    {operator : ScoringOperator} (weights : List ω)
    (each : StandEach index model.isSoft (queries.map (Prod.mk document)) operands)
    (merges : operator.matching model.isSoft = .any ∨ operator.matching model.isSoft = .all ∧
      ∀ operand ∈ operands, operand.current? = some document) :
    AnsweredEach index model.isSoft document queries
      (Query.combinedAt index model document operator weights
        (Query.scoresAt index model document queries)) operands
      (Cursor.scoreOperands score index model document (operator.statisticsOn index queries) operator
        weights operands) := by
  cases operator with
  | and =>
      cases model with
      | rankedBoolean =>
          have standOn : ∀ operand ∈ operands, operand.current? = some document := by
            simpa [ScoringOperator.matching, Model.isSoft] using merges
          have answered := each.askEach fun query member cursor among stands =>
            scores query member stands (standOn cursor among)
          rw [Query.combinedAt, Query.scoresAt_eq_map, List.mapM_map]
          exact answered.map least
      | indri parameters => exact each.scorePresentOrDefault ascending scores _
      | unrankedBoolean | bm25 => exact each.unasked _
  | or =>
      cases model with
      | rankedBoolean => exact each.scorePresent ascending scores greatest
      | indri parameters => exact each.scorePresent ascending scores noisyOr
      | unrankedBoolean | bm25 => exact each.unasked _
  | sum =>
      cases model with
      | bm25 parameters => exact each.scoreAddends ascending scores parameters Arithmetic.sum
      | unrankedBoolean | rankedBoolean | indri => exact each.unasked _
  | wand | wsum =>
      cases model with
      | indri parameters => exact each.scorePresentOrDefault ascending scores _
      | unrankedBoolean | rankedBoolean | bm25 => exact each.unasked _
  | score | not => simp [ScoringOperator.matching] at merges

/-! ## Operands of a match -/

theorem StandEach.congr {soft : Bool} {places : List (Standpoint ω)}
    (each : StandEach index soft places operands)
    (same : ∀ place ∈ places, ∀ other ∈ place.2.documentsOn index soft,
      place.1 ≤ other ↔ document ≤ other) :
    StandEach index soft ((places.map Prod.snd).map (Prod.mk document)) operands := by
  induction places generalizing operands with
  | nil =>
      cases each
      exact .nil
  | cons place places induction =>
      cases each with
      | cons stands later =>
          obtain ⟨sameHead, sameLater⟩ := List.forall_mem_cons.mp same
          exact .cons (stands.congr sameHead) (induction later sameLater)

/-- All operands of a match stand at the match: no document of theirs lies between their bound and
it. -/
theorem StandEach.at_match (ascending : index.Ascending) {soft : Bool} {operator : ScoringOperator}
    {places : List (Standpoint ω)} (each : StandEach index soft places operands)
    (follows : (operator.matching soft).Follows document
      (places.map (Standpoint.documents index soft)))
    (merges : operator.matching soft = .any ∨ operator.matching soft = .all ∧
      ∀ operand ∈ operands, operand.current? = some document) :
    StandEach index soft ((places.map Prod.snd).map (Prod.mk document)) operands := by
  refine each.congr fun place member other present => ?_
  rcases merges with matching | ⟨-, standOn⟩
  · rw [matching] at follows
    exact (follows _ (List.mem_map_of_mem member) other present).symm
  · obtain ⟨cursor, among, stands⟩ := each.exists_of_mem member
    exact (stands.isNext_of_current? ascending (standOn cursor among)).bound_iff present

/-! ## Scores of trees -/

/-- The scoring of a cursor has ended with the right answer, and has left the cursor where it was. -/
structure ScoredRight (index : Index) (model : Model ω) (bound : DocumentId) (query : Query ω)
    (before : Cursor ω) (result : Except Error ω × Cursor ω) : Prop where
  /-- The scoring ends. -/
  ends : Scores index model before result
  /-- The bound is as before. -/
  stands : Stands index model.isSoft bound query result.2
  /-- The document is as before. -/
  kept : result.2.current? = before.current?
  /-- The score is that of the document. -/
  answer : ∀ document, before.current? = some document →
    result.1 = query.scoreAt index model document

theorem Stands.at_document (ascending : index.Ascending) {soft : Bool} {bound : DocumentId}
    {query : Query ω} {cursor : Cursor ω} (stands : Stands index soft bound query cursor)
    (current : cursor.current? = some document) : Stands index soft document query cursor :=
  stands.congr fun _ present => (stands.isNext_of_current? ascending current).bound_iff present

theorem ScoredRight.of_at_document (ascending : index.Ascending) {bound : DocumentId} {query : Query ω}
    {cursor : Cursor ω} {result : Except Error ω × Cursor ω}
    (scored : ScoredRight index model document query cursor result)
    (stands : Stands index model.isSoft bound query cursor)
    (current : cursor.current? = some document) :
    ScoredRight index model bound query cursor result := by
  refine ⟨scored.ends, scored.stands.congr fun other present => ?_, scored.kept, scored.answer⟩
  exact ((stands.isNext_of_current? ascending current).bound_iff present).symm

theorem Stands.scored_nowhere {bound : DocumentId} {query : Query ω} {cursor : Cursor ω}
    (stands : Stands index model.isSoft bound query cursor) (nowhere : cursor.current? = none)
    (levels : Nat) :
    ScoredRight index model bound query cursor (cursor.scoreWithin index model (levels + 1)) := by
  have same : cursor.scoreWithin index model (levels + 1) = (.ok 0, cursor) := by
    simp only [scoreWithin, nowhere]
  rw [same]
  exact ⟨.nowhere nowhere, stands, rfl, by simp [nowhere]⟩

theorem Stands.scored_list (ascending : index.Ascending) {bound : DocumentId} {query : Query ω}
    {cursor : Cursor ω} (stands : Stands index model.isSoft bound query cursor)
    (isList : cursor.isList = true) (current : cursor.current? = some document) (levels : Nat) :
    ScoredRight index model bound query cursor (cursor.scoreWithin index model (levels + 1)) := by
  have same : cursor.scoreWithin index model (levels + 1) =
      (cursor.listScore index model document, cursor) := by
    cases cursor with
    | scoring => simp [Cursor.isList] at isList
    | term => simp only [scoreWithin, current]
    | list => simp only [scoreWithin, current]
  have queryIsList : query.isList = true := by
    rw [← stands.query_eq, ← isList_eq]
    exact isList
  rw [same]
  refine ⟨.list isList current, stands, rfl, fun other same => ?_⟩
  obtain rfl := Option.some.inj (current.symm.trans same)
  rw [Query.scoreAt_of_isList index model document queryIsList]
  exact (stands.at_document ascending current).listScore_eq ascending model
    (stands.mem_of_current? ascending current)

/-- The scoring of a match ends if the searches of its operands and their scoring do. -/
theorem StandEach.scores (ascending : index.Ascending) {places : List (Standpoint ω)}
    (each : StandEach index model.isSoft places operands)
    (scored : ∀ place ∈ places, ∀ {bound : DocumentId} {cursor : Cursor ω},
      Stands index model.isSoft bound place.2 cursor →
        ScoredRight index model bound place.2 cursor (score cursor))
    (operator : ScoringOperator) (weights : List ω) (document : DocumentId)
    (statistics : Option (SumStatistics ω)) :
    let answered := Cursor.scoreOperands score index model document statistics operator weights operands
    Scores index model (.scoring operator operands weights (some document) statistics)
      (answered.1, .scoring operator answered.2 weights (some document) statistics) := by
  refine .operands score ?_ ?_ ?_
  · intro operand member
    obtain ⟨place, -, stands⟩ := each.exists_place member
    exact (stands.settle ascending).ends
  · intro operand member
    obtain ⟨place, among, stands⟩ := each.exists_place member
    exact (scored place among stands).ends
  · intro operand member
    obtain ⟨place, among, stands⟩ := each.exists_place member
    exact (scored place among (stands.settle ascending).stands).ends

/-- The score of a list, by the operator that scores a list. -/
theorem scoreOperands_score (ascending : index.Ascending) {places : List (Standpoint ω)}
    {weights : List ω} {statistics : Option (SumStatistics ω)}
    (each : StandEach index model.isSoft places operands)
    (follows : Matching.leading.Follows document
      (places.map (Standpoint.documents index model.isSoft)))
    (present : document ∈ Query.documentsOn index model.isSoft
      (.apply (.scoring .score) (places.map Prod.snd) weights)) :
    Cursor.scoreOperands score index model document statistics .score weights operands =
      (Query.scoreAt index model document
        (.apply (.scoring .score) (places.map Prod.snd) weights), operands) := by
  cases each with
  | nil => rfl
  | cons stands later =>
      rw [Query.documentsOn_scoring] at present
      have standing := stands.congr fun other among => (follows _ rfl other among).symm
      rw [Cursor.scoreOperands, standing.listScore_eq ascending model present]
      rfl

/-- The score of a match of an operator that asks its operands. -/
theorem Stands.scored_merged (ascending : index.Ascending) {operator : ScoringOperator}
    {weights : List ω} {places : List (Standpoint ω)}
    (each : StandEach index model.isSoft places operands)
    (follows : (operator.matching model.isSoft).Follows document
      (places.map (Standpoint.documents index model.isSoft)))
    (next : IsNext (documentsFrom (Query.documentsOn index model.isSoft
      (.apply (.scoring operator) (places.map Prod.snd) weights)) document) (some document))
    (merges : operator.matching model.isSoft = .any ∨ operator.matching model.isSoft = .all ∧
      ∀ operand ∈ operands, operand.current? = some document)
    (scored : ∀ query ∈ places.map Prod.snd, ∀ {bound : DocumentId} {cursor : Cursor ω},
      Stands index model.isSoft bound query cursor →
        ScoredRight index model bound query cursor (score cursor)) :
    let statistics := operator.statisticsOn index (places.map Prod.snd)
    let answered := Cursor.scoreOperands score index model document statistics operator weights operands
    ScoredRight index model document (.apply (.scoring operator) (places.map Prod.snd) weights)
      (.scoring operator operands weights (some document) statistics)
      (answered.1, .scoring operator answered.2 weights (some document) statistics) := by
  intro statistics answered
  have ends := each.scores ascending
    (fun place member => scored place.2 (List.mem_map_of_mem member)) operator weights document
    statistics
  have scores : ∀ query ∈ places.map Prod.snd, AnswersScore index model score query := by
    intro query member document cursor stands current
    obtain ⟨-, standing, kept, answer⟩ := scored query member stands
    exact ⟨standing, fun _ => kept.trans current, answer document current⟩
  obtain ⟨standEach, kept, answer⟩ := StandEach.scoreOperands ascending scores weights
    (each.at_match ascending follows merges) merges
  refine ⟨ends, ?_, rfl, fun other same => ?_⟩
  · refine .scoring _ (by simp) standEach (Matching.follows_same _ index _ document _) ?_ ?_
    · rintro other same
      exact same ▸ next
    · intro conjunction other same
      have standOn : ∀ operand ∈ operands, operand.current? = some document := by
        rcases merges with any | ⟨-, standOn⟩
        · exact absurd (any.symm.trans conjunction) (by simp)
        · exact standOn
      exact same ▸ kept standOn
  · obtain rfl := Option.some.inj same
    exact answer

theorem Stands.scored_match (ascending : index.Ascending)
    {operator : ScoringOperator} {weights : List ω} {statistics : Option (SumStatistics ω)}
    (stands : Stands index model.isSoft document (.apply (.scoring operator) queries weights)
      (.scoring operator operands weights (some document) statistics))
    (scored : ∀ query ∈ queries, ∀ {bound : DocumentId} {cursor : Cursor ω},
      Stands index model.isSoft bound query cursor →
        ScoredRight index model bound query cursor (score cursor)) :
    let answered := Cursor.scoreOperands score index model document statistics operator weights operands
    ScoredRight index model document (.apply (.scoring operator) queries weights)
      (.scoring operator operands weights (some document) statistics)
      (answered.1, .scoring operator answered.2 weights (some document) statistics) := by
  have standing := stands
  cases stands with
  | scoring places of each follows known agreed =>
      subst of
      have next := known document rfl
      have present := next.1.1
      cases matching : operator.matching model.isSoft with
      | any => exact Stands.scored_merged ascending each follows next (.inl matching) scored
      | all =>
          have standOn := agreed matching document rfl
          exact Stands.scored_merged ascending each follows next (.inr ⟨matching, standOn⟩) scored
      | leading =>
          obtain rfl := ScoringOperator.eq_score_of_leading matching
          have ends := each.scores ascending
            (fun place member => scored place.2 (List.mem_map_of_mem member)) .score weights document
            (ScoringOperator.score.statisticsOn index (places.map Prod.snd))
          rw [scoreOperands_score ascending each follows present] at ends ⊢
          refine ⟨ends, standing, rfl, fun other same => ?_⟩
          obtain rfl := Option.some.inj same
          rfl
      | never =>
          rw [Query.documentsOn_scoring, matching] at present
          simp [Matching.documents] at present

/-- As many levels as the query is high suffice to score its matches. -/
theorem scoreWithin_scored (ascending : index.Ascending) :
    ∀ (levels : Nat) (query : Query ω), query.height ≤ levels →
      ∀ {bound : DocumentId} {cursor : Cursor ω}, Stands index model.isSoft bound query cursor →
        ScoredRight index model bound query cursor (cursor.scoreWithin index model levels) := by
  intro levels
  induction levels with
  | zero =>
      intro query low
      cases query <;> simp [Query.height] at low
  | succ levels induction =>
      intro query low bound cursor stands
      cases current : cursor.current? with
      | none => exact stands.scored_nowhere current levels
      | some document =>
          refine ScoredRight.of_at_document ascending ?_ stands current
          replace stands := stands.at_document ascending current
          cases stands with
          | term => exact Stands.scored_list ascending .term rfl current levels
          | list query same =>
              exact Stands.scored_list ascending (.list query same) rfl current levels
          | scoring places of each follows known agreed =>
              obtain rfl := (current : _ = some document)
              refine Stands.scored_match ascending (.scoring places of each follows known agreed) ?_
              rw [Query.height] at low
              intro query member
              refine induction query (Nat.le_trans ?_ (Nat.le_of_succ_le_succ low))
              exact Query.height_le_heightEach member

/-- The score of a cursor is that of its document, and the cursor stays where it stands. -/
theorem Stands.scoredRight (ascending : index.Ascending) {bound : DocumentId} {query : Query ω}
    {cursor : Cursor ω} (stands : Stands index model.isSoft bound query cursor) :
    ScoredRight index model bound query cursor (cursor.score index model) := by
  rw [Cursor.score, height_eq, stands.query_eq]
  exact scoreWithin_scored ascending _ query le_rfl stands

end Cursor

end Retrieval
