import Mathlib.Data.Finset.Sort
import Retrieval.Feedback
import Retrieval.Proofs.Evaluation.Traversal
import Retrieval.Proofs.Query.Grammar
import Retrieval.Proofs.Scoring.Matches

/-!
# Evaluation as a scan of documents

A run of a cursor gives what a scan of the documents of its query gives, each scored on its own: the same
documents in the same order, the same scores, and the same failure if there is one. So does the search for
the text of a query, since a pruned query is an operator with operands.
-/

namespace Retrieval

namespace Query

variable {ω : Type} [Arithmetic ω]

/-- A document with the score that it has under the query. -/
def scoredAt (index : Index) (model : Model ω) (query : Query ω) (document : DocumentId) :
    Except Error (Scored ω) :=
  (query.scoreAt index model document).map fun score => ⟨document, score⟩

/-- The ranking of the documents of a query, each scored on its own, or the first failure. -/
def scan (index : Index) (model : Model ω) (query : Query ω) : Except Error (Ranking ω) :=
  let documents := (query.documentsOn index model.isSoft).sort (· ≤ ·)
  (documents.mapM (query.scoredAt index model)).map Ranking.sort

end Query

/-- What a run has come to: its scored matches, or its failure. -/
def Drained.outcome {ω : Type} (drained : Drained ω) : Except Error (Ranking ω) :=
  match drained.failure with
  | some (_, cause) => .error cause
  | none => .ok drained.scored

/-! ## Runs of cursors -/

/-- The next document, and those beyond it, are all from the bound on. -/
theorem filter_eq_cons_of_isNext {documents : Finset DocumentId} {bound document : DocumentId}
    (next : IsNext (documentsFrom documents bound) (some document)) :
    documents.filter (bound ≤ ·) =
      (documents.filter (document + 1 ≤ ·)).cons document
        (fun member => Nat.not_succ_le_self _ (Finset.mem_filter.mp member).2) := by
  ext other
  simp only [Finset.mem_filter, Finset.mem_cons]
  constructor
  · rintro ⟨member, reached⟩
    have least : document ≤ other := next.2 ⟨member, reached⟩
    rcases Nat.eq_or_lt_of_le least with same | beyond
    · exact .inl same.symm
    · exact .inr ⟨member, beyond⟩
  · rintro (rfl | ⟨member, beyond⟩)
    · exact next.1
    · exact ⟨member, Nat.le_trans next.1.2 (Nat.le_of_succ_le beyond)⟩

theorem sort_filter_of_isNext {documents : Finset DocumentId} {bound document : DocumentId}
    (next : IsNext (documentsFrom documents bound) (some document)) :
    (documents.filter (bound ≤ ·)).sort (· ≤ ·) =
      document :: (documents.filter (document + 1 ≤ ·)).sort (· ≤ ·) := by
  have beyond : ∀ other ∈ documents.filter (document + 1 ≤ ·), document ≤ other :=
    fun other member => Nat.le_of_succ_le (Finset.mem_filter.mp member).2
  rw [filter_eq_cons_of_isNext next]
  exact Finset.sort_cons _ beyond _

namespace Cursor

variable {ω : Type} [Arithmetic ω] {index : Index} {model : Model ω}

/-- The rounds suffice if fewer documents are ahead: each takes the next one away. -/
theorem Stands.outcome_drainWithin (ascending : index.Ascending) (rounds : Nat) {bound : DocumentId}
    {query : Query ω} {cursor : Cursor ω} (stands : Stands index model.isSoft bound query cursor)
    (enough : ((query.documentsOn index model.isSoft).filter (bound ≤ ·)).card < rounds) :
    (cursor.drainWithin index model rounds).outcome =
      (((query.documentsOn index model.isSoft).filter (bound ≤ ·)).sort (· ≤ ·)).mapM
        (query.scoredAt index model) := by
  induction rounds generalizing bound cursor with
  | zero => exact absurd enough (Nat.not_lt_zero _)
  | succ rounds induction =>
      obtain ⟨-, standing, next⟩ := stands.settle ascending
      rw [drainWithin]
      cases current : (cursor.settle model.isSoft).current? with
      | none =>
          have empty : (query.documentsOn index model.isSoft).filter (bound ≤ ·) = ∅ :=
            Finset.eq_empty_of_forall_notMem fun document member =>
              next.notMem current (Finset.mem_filter.mp member)
          rw [empty, Finset.sort_empty]
          rfl
      | some document =>
          rw [current] at next
          obtain ⟨-, standScored, -, answer⟩ := standing.scoredRight ascending
          have score_eq := answer document current
          rw [sort_filter_of_isNext next, List.mapM_cons, Query.scoredAt, ← score_eq]
          rcases result : (cursor.settle model.isSoft).score index model with ⟨cause | score, moved⟩
          · rfl
          · rw [result] at standScored
            have beyond := standScored.advancePast ascending document
            rw [Nat.max_eq_right (Nat.le_succ_of_le next.1.2)] at beyond
            have fewer : ((query.documentsOn index model.isSoft).filter (document + 1 ≤ ·)).card <
                rounds := by
              rw [filter_eq_cons_of_isNext next, Finset.card_cons] at enough
              exact Nat.lt_of_succ_lt_succ enough
            rw [← induction beyond fewer]
            simp only [Drained.outcome]
            cases (drainWithin index model rounds (moved.advancePast document)).failure <;> rfl

/-- A run from the beginning scores all documents. -/
theorem outcome_drain_openOn (model : Model ω) (ascending : index.Ascending) (query : Query ω) :
    (((ofQuery query).openOn index).drain index model).outcome =
      ((query.documentsOn index model.isSoft).sort (· ≤ ·)).mapM (query.scoredAt index model) := by
  have stands := stands_openOn index model.isSoft (ofQuery query)
  rw [query_ofQuery] at stands
  have enough := Nat.lt_succ_of_le stands.card_le_remaining
  rw [drain, stands.outcome_drainWithin ascending _ enough]
  simp

end Cursor

/-! ## Queries that have been read -/

namespace Query

variable {ω : Type} [Arithmetic ω]

/-- The query is an operator. -/
def IsApply (query : Query ω) : Prop :=
  ∃ operator operands weights, query = .apply operator operands weights

theorem isApply_of_parse {engine : Engine ω} {text : String} {query : Query ω}
    (parsed : engine.parse text = .ok query) : query.IsApply := by
  have named := Operator.isNamed_label_defaultOperator engine.model
  obtain ⟨items, -, rfl⟩ := (parse_eq_ok_iff_of_isNamed named).mp parsed
  exact ⟨_, _, _, rfl⟩

theorem operands_ne_nil_of_prune {query kept : Query ω} (isApply : query.IsApply)
    (pruned : query.prune = some kept) : kept.operands ≠ [] := by
  obtain ⟨operator, operands, weights, rfl⟩ := isApply
  rw [prune] at pruned
  split at pruned
  · simp at pruned
  · next remain nonempty =>
      obtain rfl := Option.some.inj pruned
      simpa [Query.operands] using nonempty

end Query

/-! ## The search for a text -/

namespace Engine

variable {ω : Type} [Arithmetic ω] {engine : Engine ω}

theorem evaluate_eq_scan (ascending : engine.index.Ascending) {query : Query ω}
    (nonempty : query.operands ≠ []) :
    engine.evaluate query = query.scan engine.index engine.model := by
  rw [evaluate, if_neg (by simpa using nonempty), Query.scan,
    ← Cursor.outcome_drain_openOn engine.model ascending]
  dsimp only
  rcases ((Cursor.ofQuery query).openOn engine.index).drain engine.index engine.model with
    ⟨scored, _ | ⟨document, cause⟩, cursor⟩
  · rfl
  · rfl

/-- A plan has operands: what is left of an operator after pruning is not empty. -/
theorem operands_ne_nil_of_plan {text : String} {kept : Query ω}
    (planned : engine.plan text = .ok (some kept)) : kept.operands ≠ [] := by
  rw [plan] at planned
  split at planned
  · next query parsed =>
      exact Query.operands_ne_nil_of_prune (Query.isApply_of_parse parsed) (Except.ok.inj planned)
  · simp at planned

/-- The search for a text scans the documents of its plan. -/
theorem search_eq_scan (documents : List Document) (stopwords : List String) (model : Model ω)
    (analyzer : Analyzer) (text : String) :
    let engine : Engine ω := ⟨.ofDocuments documents stopwords, model, analyzer⟩
    engine.search text = (do
      match ← engine.plan text with
      | none => return []
      | some query => query.scan engine.index engine.model) := by
  intro engine
  have ascending : engine.index.Ascending := Index.ofDocuments_ascending documents stopwords
  rw [search]
  cases planned : engine.plan text with
  | error cause => rfl
  | ok plan =>
      cases plan with
      | none => rfl
      | some kept => exact evaluate_eq_scan ascending (operands_ne_nil_of_plan planned)

/-! ## Runs with feedback -/

/-- The ranking that a query is expanded by: a given one, or that of the query itself. -/
def firstRanking (engine : Engine ω) (text : String) :
    Option (Ranking ω) → Except Error (Ranking ω)
  | some ranking => .ok ranking
  | none => engine.search text

theorem searchWithFeedback_eq (engine : Engine ω) (feedback : Feedback ω)
    (text : String) (first : Option (Ranking ω)) :
    engine.searchWithFeedback feedback text first = engine.firstRanking text first >>= fun ranking =>
      match feedback.expansionTerms engine.index ranking with
      | .error cause => .error (.index cause)
      | .ok terms =>
          let query := expandedQuery text (expansionQuery terms) feedback.queryWeight
          (engine.search query).map fun ranking => ⟨terms, expansionQuery terms, query, ranking⟩ := by
  cases first <;> rfl

/-- A run with feedback ends with the search for the expanded query. -/
theorem search_query_eq {feedback : Feedback ω} {text : String} {first : Option (Ranking ω)}
    {expansion : Expansion ω} (found : engine.searchWithFeedback feedback text first = .ok expansion) :
    engine.search expansion.query = .ok expansion.ranking := by
  rw [searchWithFeedback_eq] at found
  obtain ⟨ranking, -, found⟩ := bind_eq_ok_iff.mp found
  split at found
  · cases found
  · obtain ⟨last, searched, rfl⟩ := map_eq_ok_iff.mp found
    exact searched

end Engine

end Retrieval
