import Retrieval.Batch
import Retrieval.Proofs.Evaluation.Scan
import Retrieval.Proofs.Evaluation.Traversal

/-!
# Outcomes of queries

The rows of a query are those of its best matches, in the order of the sorted ranking. With feedback,
the query is the expanded one. If nothing matches, one row says so.
-/

namespace Retrieval

variable {ω : Type} [Arithmetic ω]

/-! ## Matches -/

namespace Engine

variable {engine : Engine ω}

/-- The matches of the query that a text writes, in the order of the documents. -/
def matched (engine : Engine ω) (text : String) : Except Error (Ranking ω) := do
  match ← engine.plan text with
  | none => return []
  | some query =>
      let documents := query.documentsOn engine.index engine.model.isSoft
      (documents.sort (· ≤ ·)).mapM (query.scoredAt engine.index engine.model)

/-- A search gives the sorted matches. -/
theorem search_eq_sort_matched (ascending : engine.index.Ascending) (text : String) :
    engine.search text = (engine.matched text).map Ranking.sort := by
  rw [search, matched]
  cases planned : engine.plan text with
  | error cause => rfl
  | ok plan =>
      cases plan with
      | none => exact congrArg Except.ok (by simp [Ranking.sort, Ranking.isDefined])
      | some kept => exact evaluate_eq_scan ascending (operands_ne_nil_of_plan planned)

end Engine

/-! ## Rows -/

/-- The rows of a sorted ranking: one for each of the best documents, with their ranks from one on,
or a placeholder if there is none. -/
structure Ranking.HasRows (index : Index) (query tag : String) (limit : Nat) (ranking : Ranking ω)
    (rows : List (Row ω)) : Prop where
  /-- Without documents there is a placeholder. -/
  placeholder : ranking = [] → rows = [⟨query, placeholderDocument, 1, 0, tag⟩]
  /-- Otherwise there are as many rows as documents, up to the limit. -/
  length : ranking ≠ [] → rows.length = min limit ranking.length
  /-- Each row is that of the document at its place. -/
  row : ranking ≠ [] → ∀ place (row : Row ω), rows[place]? = some row →
    ∃ (scored : Scored ω) (document : String), ranking[place]? = some scored ∧
      index.identifier scored.document = .ok document ∧
        row = ⟨query, document, place + 1, scored.score, tag⟩

theorem Ranking.hasRows_of_rows {index : Index} {query tag : String} {limit : Nat}
    {ranking : Ranking ω} {rows : List (Row ω)}
    (listed : ranking.rows index query tag limit = .ok rows) :
    Ranking.HasRows index query tag limit ranking rows := by
  rw [Ranking.rows] at listed
  split at listed
  · next empty =>
      have empty : ranking = [] := by simpa using empty
      exact ⟨fun _ => (Except.ok.inj listed).symm, fun some => absurd empty some,
        fun some => absurd empty some⟩
  · next nonempty =>
      have each := mapM_eq_ok_iff.mp listed
      have size : rows.length = min limit ranking.length := by
        simpa using each.length_eq.symm
      refine ⟨fun empty => absurd (by simp [empty]) nonempty, fun _ => size,
        fun _ place row stands => ?_⟩
      obtain ⟨inside, rfl⟩ := List.getElem?_eq_some_iff.mp stands
      have bound : place < limit ∧ place < ranking.length := by omega
      have stated := each.get (by simpa using bound) inside
      obtain ⟨document, named, same⟩ := map_eq_ok_iff.mp stated
      simp only [List.get_eq_getElem, List.getElem_zipIdx, List.getElem_take, Nat.zero_add]
        at named same
      exact ⟨_, document, List.getElem?_eq_getElem bound.2, named, same.symm⟩

namespace Batch

/-! ## Outcomes -/

variable {engine : Engine ω} {parameters : Parameters ω} {firsts : FirstRankings ω}

/-- The text that is searched for a query, and the query for the added terms. -/
inductive Asks (engine : Engine ω) (parameters : Parameters ω) (firsts : FirstRankings ω)
    (line : QueryLine) : String → Option String → Prop
  /-- Without feedback the text of the query is searched. -/
  | plain (off : parameters.feedback = none) : Asks engine parameters firsts line line.text none
  /-- With feedback the expanded query is searched. -/
  | expanded {feedback : Feedback ω} {found : Expansion ω}
      (on : parameters.feedback = some feedback)
      (searched :
        engine.searchWithFeedback feedback line.text firsts[line.number]? = .ok found) :
      Asks engine parameters firsts line found.query (some found.expansion)

/-- The outcome is that of the query: its rows are those of the sorted matches. -/
structure Answers (engine : Engine ω) (parameters : Parameters ω) (firsts : FirstRankings ω)
    (line : QueryLine) (outcome : Outcome ω) : Prop where
  /-- The outcome has the number of the query. -/
  number : outcome.number = line.number
  /-- Its rows are those of the best matches. -/
  rows : ∃ text found, Asks engine parameters firsts line text outcome.expansion ∧
    engine.matched text = .ok found ∧
    Ranking.HasRows engine.index line.number parameters.tag maximalRows (Ranking.sort found)
      outcome.rows

theorem exists_asks {line : QueryLine} {ranking : Ranking ω} {expansion : Option String}
    (answered : answer engine parameters firsts line = .ok (ranking, expansion)) :
    ∃ text, Asks engine parameters firsts line text expansion ∧
      engine.search text = .ok ranking := by
  rw [answer] at answered
  split at answered
  · next off =>
      obtain ⟨found, searched, same⟩ := map_eq_ok_iff.mp answered
      cases same
      exact ⟨_, .plain off, searched⟩
  · next on =>
      obtain ⟨found, searched, same⟩ := map_eq_ok_iff.mp answered
      cases same
      exact ⟨_, .expanded on searched, Engine.search_query_eq searched⟩

theorem answers_of_evaluate (ascending : engine.index.Ascending) {line : QueryLine}
    {outcome : Outcome ω} (evaluated : evaluate engine parameters firsts line = .ok outcome) :
    Answers engine parameters firsts line outcome := by
  obtain ⟨⟨ranking, expansion⟩, answered, evaluated⟩ := bind_eq_ok_iff.mp evaluated
  obtain ⟨text, asks, searched⟩ := exists_asks answered
  rw [Engine.search_eq_sort_matched ascending] at searched
  obtain ⟨found, matched, rfl⟩ := map_eq_ok_iff.mp searched
  dsimp only at evaluated
  split at evaluated
  · next rows listed =>
      cases evaluated
      exact ⟨rfl, text, found, asks, matched, Ranking.hasRows_of_rows listed⟩
  · cases evaluated

end Batch

end Retrieval
