import Retrieval.Proofs.Query.Parts
import Retrieval.Query.Prune

/-!
# What pruning leaves of a query

The terms of a query decide what pruning does. A query without terms disappears; any other one loses
exactly the operands in which no term occurs, wherever they stand, while all that remains keeps its
operator, its order and its weight. What remains has operands under every operator and a weight for each,
so there is nothing left to prune.
-/

namespace Retrieval

namespace Query

variable {ω : Type} [Arithmetic ω]

/-! ## Weights beside operands -/

/-- The operands with their weights; an operand without a weight weighs one. -/
def weighed (weights : List ω) (operands : List (Query ω)) : List (ω × Query ω) :=
  operands.mapIdx fun place operand => (weightAt weights place, operand)

@[simp]
theorem weighed_nil (weights : List ω) : weighed weights [] = [] := rfl

theorem weighed_cons (weights : List ω) (operand : Query ω) (operands : List (Query ω)) :
    weighed weights (operand :: operands) =
      (weights.headD 1, operand) :: weighed weights.tail operands := by
  rw [weighed, List.mapIdx_cons, weighed]
  cases weights <;> simp [weightAt]

@[simp]
theorem map_snd_weighed (weights : List ω) (operands : List (Query ω)) :
    (weighed weights operands).map Prod.snd = operands := by
  induction operands generalizing weights with
  | nil => rfl
  | cons operand operands induction => simp [weighed_cons, induction]

theorem map_fst_weighed {weights : List ω} {operands : List (Query ω)}
    (same : weights.length = operands.length) : (weighed weights operands).map Prod.fst = weights := by
  induction operands generalizing weights with
  | nil => exact (List.length_eq_zero_iff.mp same).symm
  | cons operand operands induction =>
      cases weights with
      | nil => simp at same
      | cons weight weights => simp [weighed_cons, induction (Nat.succ.inj same)]

theorem snd_mem_of_mem_weighed {weights : List ω} {operands : List (Query ω)} {item : ω × Query ω}
    (member : item ∈ weighed weights operands) : item.2 ∈ operands := by
  rw [← map_snd_weighed weights operands]
  exact List.mem_map_of_mem member

theorem keepOperands_eq_filterMap (weights : List ω) (operands : List (Query ω)) :
    keepOperands weights (operands.map prune) =
      (weighed weights operands).filterMap fun item => item.2.prune.map (Prod.mk item.1) := by
  induction operands generalizing weights with
  | nil => simp [keepOperands]
  | cons operand operands induction =>
      rw [List.map_cons, weighed_cons, List.filterMap_cons]
      cases operand.prune with
      | none => exact induction weights.tail
      | some kept => exact congrArg _ (induction weights.tail)

/-- Pruning an operator prunes its operands, each of which takes its weight along. -/
theorem prune_apply_eq_ite (operator : Operator) (operands : List (Query ω)) (weights : List ω) :
    (apply operator operands weights).prune =
      let items := (weighed weights operands).filterMap fun item => item.2.prune.map (Prod.mk item.1)
      if items = [] then none else some (.apply operator (items.map Prod.snd) (items.map Prod.fst)) := by
  rw [prune, pruneEach_eq_map, keepOperands_eq_filterMap]
  dsimp only
  split
  · next none => rw [if_pos none]
  · next some => rw [if_neg some]

/-! ## Trimmed queries -/

mutual

/-- The second query is the first without the operands in which no term occurs. -/
inductive Trims : Query ω → Query ω → Prop
  | term (text : String) (field : Field) : Trims (.term text field) (.term text field)
  | apply {operator : Operator} {operands : List (Query ω)} {weights : List ω}
      {items : List (ω × Query ω)} (each : TrimsEach (weighed weights operands) items) :
      Trims (.apply operator operands weights)
        (.apply operator (items.map Prod.snd) (items.map Prod.fst))

/-- Of the operands with their weights, those in which a term occurs remain in their order, trimmed. -/
inductive TrimsEach : List (ω × Query ω) → List (ω × Query ω) → Prop
  | nil : TrimsEach [] []
  | drop {weight : ω} {query : Query ω} {items kept : List (ω × Query ω)} (absent : query.terms = [])
      (later : TrimsEach items kept) : TrimsEach ((weight, query) :: items) kept
  | keep {weight : ω} {query trimmed : Query ω} {items kept : List (ω × Query ω)}
      (occurs : query.terms ≠ []) (head : Trims query trimmed) (later : TrimsEach items kept) :
      TrimsEach ((weight, query) :: items) ((weight, trimmed) :: kept)

end

theorem Trims.exists_items {operator : Operator} {operands : List (Query ω)} {weights : List ω}
    {kept : Query ω} (trims : Query.Trims (.apply operator operands weights) kept) :
    ∃ items, TrimsEach (weighed weights operands) items ∧
      kept = .apply operator (items.map Prod.snd) (items.map Prod.fst) := by
  cases trims with
  | apply each => exact ⟨_, each, rfl⟩

mutual

/-- There is one way to trim a query. -/
theorem Trims.unique {query kept other : Query ω} :
    query.Trims kept → query.Trims other → other = kept
  | .term _ _, .term _ _ => rfl
  | .apply each, .apply otherEach => by rw [each.unique otherEach]

theorem TrimsEach.unique {items kept others : List (ω × Query ω)} :
    TrimsEach items kept → TrimsEach items others → others = kept
  | .nil, .nil => rfl
  | .drop _ later, .drop _ otherLater => later.unique otherLater
  | .drop absent _, .keep occurs _ _ => absurd absent occurs
  | .keep occurs _ _, .drop absent _ => absurd absent occurs
  | .keep _ head later, .keep _ otherHead otherLater => by
      rw [head.unique otherHead, later.unique otherLater]

end

mutual

/-- Trimming leaves the sequence of terms as it is. -/
theorem Trims.terms_eq {query kept : Query ω} : query.Trims kept → kept.terms = query.terms
  | .term _ _ => rfl
  | .apply each => by
      rw [terms_apply, terms_apply, each.flatMap_terms_eq, map_snd_weighed]

theorem TrimsEach.flatMap_terms_eq {items kept : List (ω × Query ω)} :
    TrimsEach items kept → (kept.map Prod.snd).flatMap terms = (items.map Prod.snd).flatMap terms
  | .nil => rfl
  | .drop absent later => by
      rw [List.map_cons, List.flatMap_cons, absent, later.flatMap_terms_eq, List.nil_append]
  | .keep _ head later => by
      rw [List.map_cons, List.flatMap_cons, head.terms_eq, later.flatMap_terms_eq]
      rfl

end

theorem TrimsEach.terms_ne_nil {items kept : List (ω × Query ω)} :
    TrimsEach items kept → ∀ item ∈ kept, item.2.terms ≠ []
  | .nil => by simp
  | .drop _ later => later.terms_ne_nil
  | .keep occurs head later =>
      List.forall_mem_cons.mpr ⟨head.terms_eq.symm ▸ occurs, later.terms_ne_nil⟩

/-- An operator with terms keeps operands, and one without terms keeps none. -/
theorem TrimsEach.eq_nil_iff {operator : Operator} {operands : List (Query ω)} {weights : List ω}
    {kept : List (ω × Query ω)} (each : TrimsEach (weighed weights operands) kept) :
    kept = [] ↔ (apply operator operands weights).terms = [] := by
  have terms_eq := each.flatMap_terms_eq
  rw [map_snd_weighed] at terms_eq
  rw [terms_apply, ← terms_eq, List.flatMap_eq_nil_iff]
  constructor
  · rintro rfl
    simp
  · intro none
    refine List.eq_nil_iff_forall_not_mem.mpr fun item member => ?_
    exact each.terms_ne_nil item member (none item.2 (List.mem_map_of_mem member))

mutual

/-- What remains is complete throughout. -/
theorem Trims.isComplete {query kept : Query ω} :
    query.Trims kept → query.terms ≠ [] → ∀ part ∈ kept.parts, part.IsComplete
  | .term _ _, _ => by simp [parts, IsComplete]
  | .apply each, occurs => by
      intro part member
      rcases mem_parts_apply.mp member with rfl | ⟨operand, among, inside⟩
      · refine ⟨fun none => occurs (each.eq_nil_iff.mp ?_), by simp⟩
        exact List.map_eq_nil_iff.mp none
      · obtain ⟨item, remains, rfl⟩ := List.mem_map.mp among
        exact each.isComplete item remains part inside

theorem TrimsEach.isComplete {items kept : List (ω × Query ω)} :
    TrimsEach items kept → ∀ item ∈ kept, ∀ part ∈ item.2.parts, part.IsComplete
  | .nil => by simp
  | .drop _ later => later.isComplete
  | .keep occurs head later =>
      List.forall_mem_cons.mpr ⟨head.isComplete occurs, later.isComplete⟩

end

theorem TrimsEach.self {items : List (ω × Query ω)}
    (each : ∀ item ∈ items, item.2.terms ≠ [] ∧ item.2.Trims item.2) : TrimsEach items items := by
  induction items with
  | nil => exact .nil
  | cons item items induction =>
      obtain ⟨⟨occurs, trims⟩, later⟩ := List.forall_mem_cons.mp each
      exact .keep occurs trims (induction later)

/-- A query that is complete throughout has nothing to trim. -/
theorem trims_self {query : Query ω} (complete : ∀ part ∈ query.parts, part.IsComplete) :
    query.Trims query := by
  induction query using inductionOn with
  | term text field => exact .term text field
  | apply operator operands weights induction =>
      obtain ⟨-, same⟩ := complete _ (mem_parts_self _)
      have each : TrimsEach (weighed weights operands) (weighed weights operands) := by
        refine .self fun item member => ?_
        have inside := snd_mem_of_mem_weighed member
        have below : ∀ part ∈ item.2.parts, part.IsComplete := fun part among =>
          complete part (mem_parts_apply.mpr (.inr ⟨item.2, inside, among⟩))
        exact ⟨terms_ne_nil below, induction item.2 inside below⟩
      have trims := @Trims.apply _ _ operator _ _ _ each
      rwa [map_snd_weighed, map_fst_weighed same] at trims

/-! ## Pruning trims -/

/-- Pruning finds nothing in a query without terms, and otherwise trims it. -/
def PrunesRight (query : Query ω) : Prop :=
  query.terms = [] ∧ query.prune = none ∨
    query.terms ≠ [] ∧ ∃ kept, query.prune = some kept ∧ query.Trims kept

theorem trimsEach_filterMap {items : List (ω × Query ω)} (each : ∀ item ∈ items, item.2.PrunesRight) :
    TrimsEach items (items.filterMap fun item => item.2.prune.map (Prod.mk item.1)) := by
  induction items with
  | nil => exact .nil
  | cons item items induction =>
      obtain ⟨first, later⟩ := List.forall_mem_cons.mp each
      rw [List.filterMap_cons]
      rcases first with ⟨absent, pruned⟩ | ⟨occurs, kept, pruned, trims⟩
      · rw [pruned]
        exact .drop absent (induction later)
      · rw [pruned]
        exact .keep occurs trims (induction later)

theorem prunesRight (query : Query ω) : query.PrunesRight := by
  induction query using inductionOn with
  | term text field => exact .inr ⟨by simp [terms], _, by rw [prune], .term text field⟩
  | apply operator operands weights induction =>
      have pruned : ∀ item ∈ weighed weights operands, item.2.PrunesRight := fun item member =>
        induction item.2 (snd_mem_of_mem_weighed member)
      have trimmed := trimsEach_filterMap pruned
      have none_iff := @TrimsEach.eq_nil_iff _ _ operator _ _ _ trimmed
      rw [PrunesRight, prune_apply_eq_ite]
      dsimp only
      split
      · next none => exact .inl ⟨none_iff.mp none, rfl⟩
      · next some => exact .inr ⟨fun absent => some (none_iff.mpr absent), _, rfl, .apply trimmed⟩

theorem prune_eq_none_iff {query : Query ω} : query.prune = none ↔ query.terms = [] := by
  rcases query.prunesRight with ⟨absent, pruned⟩ | ⟨occurs, kept, pruned, -⟩
  · simp [absent, pruned]
  · simp [occurs, pruned]

theorem trims_of_prune {query kept : Query ω} (pruned : query.prune = some kept) :
    query.terms ≠ [] ∧ query.Trims kept := by
  rcases query.prunesRight with ⟨-, none⟩ | ⟨occurs, found, some, trims⟩
  · rw [none] at pruned
    cases pruned
  · obtain rfl := Option.some.inj (some.symm.trans pruned)
    exact ⟨occurs, trims⟩

theorem isComplete_of_prune {query kept : Query ω} (pruned : query.prune = some kept) :
    ∀ part ∈ kept.parts, part.IsComplete :=
  (trims_of_prune pruned).2.isComplete (trims_of_prune pruned).1

/-- What is complete throughout has been pruned. -/
theorem prune_of_isComplete {query : Query ω} (complete : ∀ part ∈ query.parts, part.IsComplete) :
    query.prune = some query := by
  rcases query.prunesRight with ⟨absent, -⟩ | ⟨-, kept, pruned, trims⟩
  · exact absurd absent (terms_ne_nil complete)
  · rw [pruned, trims.unique (trims_self complete)]

/-- Pruning a query without terms leaves nothing. Of any other query it leaves the trimmed one, which is
unique; that has operands under every operator, a weight for each operand and the terms of the query, and
pruning it again leaves it as it is. -/
theorem prune_trims (query : Query ω) :
    query.terms = [] ∧ query.prune = none ∨
      query.terms ≠ [] ∧ ∃ kept, query.prune = some kept ∧
        (∀ other, query.Trims other ↔ other = kept) ∧
        (∀ part ∈ kept.parts, part.IsComplete) ∧ kept.terms = query.terms ∧
        kept.prune = some kept := by
  rcases query.prunesRight with none | ⟨occurs, kept, pruned, trims⟩
  · exact .inl none
  · have complete := trims.isComplete occurs
    refine .inr ⟨occurs, kept, pruned, fun other => ⟨trims.unique, ?_⟩, complete, trims.terms_eq,
      prune_of_isComplete complete⟩
    rintro rfl
    exact trims

end Query

end Retrieval
