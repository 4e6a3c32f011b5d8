import Mathlib.Data.Nat.Basic
import Retrieval.Cursor.Opening

/-!
# The query of a cursor

A cursor evaluates the same query wherever it stands: no movement and no merge changes the query, and
opening depends on nothing else. The field of a cursor, its kind and its height are read off the query.
-/

namespace Retrieval

namespace Query

variable {ω : Type}

mutual

/-- The field in which a query counts: that of its first term. -/
def field : Query ω → Field
  | .term _ field => field
  | .apply _ operands _ => fieldOf operands

/-- The field in which the first of several queries counts; the body if there is none. -/
def fieldOf : List (Query ω) → Field
  | [] => .body
  | first :: _ => first.field

end

mutual

/-- The number of operators and terms on the longest way down. -/
def height : Query ω → Nat
  | .term .. => 1
  | .apply _ operands _ => heightEach operands + 1

/-- The greatest height of several queries. -/
def heightEach : List (Query ω) → Nat
  | [] => 0
  | query :: later => max query.height (heightEach later)

end

theorem height_le_heightEach {query : Query ω} {queries : List (Query ω)}
    (member : query ∈ queries) : query.height ≤ heightEach queries := by
  induction queries with
  | nil => simp at member
  | cons first later induction =>
      rw [heightEach]
      rcases List.mem_cons.mp member with rfl | member
      · exact Nat.le_max_left _ _
      · exact Nat.le_trans (induction member) (Nat.le_max_right _ _)

end Query

namespace Cursor

variable {ω : Type}

@[simp]
theorem queries_eq_map (cursors : List (Cursor ω)) : queries cursors = cursors.map query := by
  induction cursors with
  | nil => simp [queries]
  | cons cursor later induction => simp [queries, induction]

/-! ## What the query decides -/

mutual

theorem field_eq : ∀ cursor : Cursor ω, cursor.field = cursor.query.field
  | .term .. => by simp [field, query, Query.field]
  | .list _ operands .. => by
      rw [field, query, Query.field]
      exact fieldOf_eq operands
  | .scoring _ operands .. => by
      rw [field, query, Query.field]
      exact fieldOf_eq operands

theorem fieldOf_eq : ∀ cursors : List (Cursor ω), fieldOf cursors = Query.fieldOf (queries cursors)
  | [] => by simp [fieldOf, Query.fieldOf]
  | first :: _ => by
      rw [fieldOf, queries, Query.fieldOf]
      exact field_eq first

end

mutual

theorem height_eq : ∀ cursor : Cursor ω, cursor.height = cursor.query.height
  | .term .. => by simp [height, query, Query.height]
  | .list _ operands .. => by
      rw [height, query, Query.height, heightEach_eq operands]
  | .scoring _ operands .. => by
      rw [height, query, Query.height, heightEach_eq operands]

theorem heightEach_eq :
    ∀ cursors : List (Cursor ω), heightEach cursors = Query.heightEach (queries cursors)
  | [] => by simp [heightEach, Query.heightEach]
  | cursor :: later => by
      rw [heightEach, queries, Query.heightEach, height_eq cursor, heightEach_eq later]

end

theorem isList_eq (cursor : Cursor ω) : cursor.isList = cursor.query.isList := by
  cases cursor <;> rfl

/-! ## Movements keep the query -/

mutual

@[simp]
theorem query_advancePast (document : DocumentId) :
    ∀ cursor : Cursor ω, (cursor.advancePast document).query = cursor.query
  | .term .. => by simp [advancePast, query]
  | .list .. => by simp [advancePast, query]
  | .scoring _ operands .. => by
      rw [advancePast, query, query, queries_advancePastEach document operands]

theorem queries_advancePastEach (document : DocumentId) :
    ∀ cursors : List (Cursor ω), queries (advancePastEach document cursors) = queries cursors
  | [] => by simp [advancePastEach]
  | cursor :: later => by
      rw [advancePastEach, queries, queries, query_advancePast document cursor,
        queries_advancePastEach document later]

end

mutual

@[simp]
theorem query_advanceTo (document : DocumentId) :
    ∀ cursor : Cursor ω, (cursor.advanceTo document).query = cursor.query
  | .term .. => by simp [advanceTo, query]
  | .list .. => by simp [advanceTo, query]
  | .scoring _ operands .. => by
      rw [advanceTo]
      split
      · rfl
      · rw [query, query, queries_advanceToEach document operands]

theorem queries_advanceToEach (document : DocumentId) :
    ∀ cursors : List (Cursor ω), queries (advanceToEach document cursors) = queries cursors
  | [] => by simp [advanceToEach]
  | cursor :: later => by
      rw [advanceToEach, queries, queries, query_advanceTo document cursor,
        queries_advanceToEach document later]

end

/-! ## Searches keep the queries -/

/-- The change moves a cursor and leaves its query as it is. -/
def KeepsQuery (change : Cursor ω → Cursor ω) : Prop :=
  ∀ cursor, (change cursor).query = cursor.query

namespace KeepsQuery

theorem id : KeepsQuery (id : Cursor ω → Cursor ω) := fun _ => rfl

theorem queries_map {change : Cursor ω → Cursor ω} (kept : KeepsQuery change)
    (cursors : List (Cursor ω)) : queries (cursors.map change) = queries cursors := by
  rw [queries_eq_map, queries_eq_map, List.map_map]
  exact List.map_congr_left fun cursor _ => kept cursor

variable {settle : Cursor ω → Cursor ω} (kept : KeepsQuery settle)

include kept

theorem queries_meet (document : DocumentId) (cursors : List (Cursor ω)) :
    queries (meet settle document cursors).2 = queries cursors := by
  induction cursors with
  | nil => rfl
  | cons cursor later induction =>
      have first : (settle (cursor.advanceTo document)).query = cursor.query := by
        rw [kept, query_advanceTo]
      rw [meet]
      dsimp only
      split
      · simp [first]
      · split
        · simpa [first] using induction
        · simp [first]

theorem queries_leapfrog (rounds : Nat) (first : Cursor ω) (others : List (Cursor ω)) :
    queries (leapfrog settle rounds first others).2 = queries (first :: others) := by
  induction rounds generalizing first others with
  | zero => rfl
  | succ rounds induction =>
      have leading := kept first
      rw [leapfrog]
      split
      · simp [leading]
      · next document _ =>
          have followed := kept.queries_meet document others
          split
          · next later met => simpa [met, leading] using followed
          · next later met => simpa [met, leading] using followed
          · next other later met =>
              rw [induction]
              simpa [met, leading] using followed

theorem queries_matchAll (cursors : List (Cursor ω)) :
    queries (matchAll settle cursors).2 = queries cursors := by
  cases cursors with
  | nil => rfl
  | cons first others => exact kept.queries_leapfrog _ first others

theorem queries_matchAny (cursors : List (Cursor ω)) :
    queries (matchAny settle cursors).2 = queries cursors :=
  kept.queries_map cursors

end KeepsQuery

/-! ## Merges keep the queries -/

theorem queries_unite (rounds : Nat) (cursors : List (Cursor ω)) :
    queries (unite rounds cursors).2 = queries cursors := by
  induction rounds generalizing cursors with
  | zero => rfl
  | succ rounds induction =>
      rw [unite]
      split
      · rfl
      · next document _ =>
          simp only [induction, queries_eq_map, List.map_map]
          refine List.map_congr_left fun cursor _ => ?_
          simp only [Function.comp_apply]
          split
          · exact query_advancePast document cursor
          · rfl

theorem queries_intersect (rounds : Nat) (cursors : List (Cursor ω)) :
    queries (intersect rounds cursors).2 = queries cursors := by
  induction rounds generalizing cursors with
  | zero => rfl
  | succ rounds induction =>
      have kept := KeepsQuery.id.queries_matchAll cursors
      rw [intersect]
      split
      · next moved agree => simpa [agree] using kept
      · next document moved agree =>
          rw [agree] at kept
          calc
            queries (intersect rounds (moved.map (advancePast document))).2
                = queries (moved.map (advancePast document)) := induction _
            _ = queries moved := by simp [Function.comp_def]
            _ = queries cursors := kept

theorem queries_proximity (combine : List (List Nat) → List Nat) (cursors : List (Cursor ω)) :
    queries (proximity combine cursors).2 = queries cursors := by
  rw [proximity]
  exact queries_intersect _ cursors

theorem queries_materialize (field : Field) (operator : ListOperator)
    (operands : List (Cursor ω)) :
    queries (materialize field operator operands).2 = queries operands := by
  unfold materialize
  split
  · exact queries_unite _ _
  · rfl
  · rfl
  · next distance _ _ => exact queries_proximity (nearPositions distance) operands
  · next size _ _ => exact queries_proximity (windowPositions size) operands

/-! ## Opening depends on the query alone -/

mutual

@[simp]
theorem query_ofQuery : ∀ query : Query ω, (ofQuery query).query = query
  | .term .. => by simp [ofQuery, Cursor.query]
  | .apply (.list _) operands _ => by
      rw [ofQuery, Cursor.query, queries_ofQueries operands]
  | .apply (.scoring _) operands _ => by
      rw [ofQuery, Cursor.query, queries_ofQueries operands]

@[simp]
theorem queries_ofQueries : ∀ list : List (Query ω), queries (ofQueries list) = list
  | [] => by simp [ofQueries]
  | query :: later => by
      rw [ofQueries, queries, query_ofQuery query, queries_ofQueries later]

end

variable [Arithmetic ω]

mutual

@[simp]
theorem query_openOn (index : Index) :
    ∀ cursor : Cursor ω, (cursor.openOn index).query = cursor.query
  | .term .. => by simp [openOn, query]
  | .list operator operands .. => by
      simp only [openOn, query]
      rw [queries_materialize, queries_openEachOn index operands]
  | .scoring _ operands .. => by
      simp only [openOn, query]
      rw [queries_openEachOn index operands]

theorem queries_openEachOn (index : Index) :
    ∀ cursors : List (Cursor ω), queries (openEachOn index cursors) = queries cursors
  | [] => by simp [openEachOn]
  | cursor :: later => by
      rw [openEachOn, queries, queries, query_openOn index cursor, queries_openEachOn index later]

end

mutual

/-- Opening a cursor forgets where it stood: only its query counts. -/
theorem openOn_eq_ofQuery (index : Index) :
    ∀ cursor : Cursor ω, cursor.openOn index = (ofQuery cursor.query).openOn index
  | .term .. => by simp [openOn, query, ofQuery]
  | .list _ operands .. => by
      rw [query, ofQuery, openOn, openOn, openEachOn_eq_ofQueries index operands]
  | .scoring _ operands .. => by
      rw [query, ofQuery, openOn, openOn, openEachOn_eq_ofQueries index operands]

theorem openEachOn_eq_ofQueries (index : Index) :
    ∀ cursors : List (Cursor ω),
      openEachOn index cursors = openEachOn index (ofQueries (queries cursors))
  | [] => by simp [openEachOn, ofQueries]
  | cursor :: later => by
      rw [queries, ofQueries, openEachOn, openEachOn, openOn_eq_ofQuery index cursor,
        openEachOn_eq_ofQueries index later]

end

end Cursor

end Retrieval
