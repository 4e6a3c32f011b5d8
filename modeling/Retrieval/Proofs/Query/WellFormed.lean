import Retrieval.Proofs.Query.Grammar
import Retrieval.Proofs.Query.Trimmed

/-!
# The shape of queries that are read

Whatever a text writes, the query that is read from it has terms that analysis has found, operators that
have a name, the weights that these call for, and operands of the kind that they take. Pruning keeps this
shape, and every part of a query has it.
-/

namespace Retrieval

variable {ω : Type} [Arithmetic ω]

/-- The weights that an operator gives to its operands: finite numbers that are not negative where weights
are written, and one elsewhere. -/
def Operator.Weighs (operator : Operator) (weight : ω) : Prop :=
  if operator.isWeighted then Arithmetic.isFinite weight = true ∧ 0 ≤ weight else weight = 1

namespace Query

/-- The query has the shape of one that is read. -/
inductive WellFormed (analyzer : Analyzer) : Query ω → Prop
  /-- A term that analysis has found in some text. -/
  | term {text word : String} (field : Field) (found : text ∈ analyzer.analyze word) :
      WellFormed analyzer (.term text field)
  /-- The score of a single list. -/
  | score {list : Query ω} (isList : list.isList = true) (inside : WellFormed analyzer list) :
      WellFormed analyzer list.score
  /-- An operator with a name. Lists stand below list operators, and only there. -/
  | apply {operator : Operator} {items : List (ω × Query ω)}
      (named : operator.IsNamed operator.label) (weighs : ∀ item ∈ items, operator.Weighs item.1)
      (kinds : ∀ item ∈ items, item.2.isList = operator.isList)
      (each : ∀ item ∈ items, WellFormed analyzer item.2) :
      WellFormed analyzer (.apply operator (items.map Prod.snd) (items.map Prod.fst))

/-- The weight and the query are in place as an operand of the operator. -/
structure IsOperand (analyzer : Analyzer) (operator : Operator) (item : ω × Query ω) : Prop where
  weighs : operator.Weighs item.1
  kind : item.2.isList = operator.isList
  wellFormed : item.2.WellFormed analyzer

variable {analyzer : Analyzer} {operator : Operator} {query : Query ω}

theorem WellFormed.of_isOperand {items : List (ω × Query ω)} (named : operator.IsNamed operator.label)
    (each : ∀ item ∈ items, IsOperand analyzer operator item) :
    WellFormed analyzer (.apply operator (items.map Prod.snd) (items.map Prod.fst)) :=
  .apply named (fun item member => (each item member).weighs) (fun item member => (each item member).kind)
    fun item member => (each item member).wellFormed

/-- Every part of a well-formed query is well formed. -/
theorem WellFormed.part (wellFormed : query.WellFormed analyzer) {part : Query ω}
    (member : part ∈ query.parts) : part.WellFormed analyzer := by
  induction wellFormed with
  | term field found =>
      obtain rfl := List.mem_singleton.mp member
      exact .term field found
  | score isList inside induction =>
      rcases mem_parts_apply.mp member with rfl | ⟨operand, among, below⟩
      · exact .score isList inside
      · obtain rfl := List.mem_singleton.mp among
        exact induction below
  | apply named weighs kinds each induction =>
      rcases mem_parts_apply.mp member with rfl | ⟨operand, among, below⟩
      · exact .apply named weighs kinds each
      · obtain ⟨item, inside, rfl⟩ := List.mem_map.mp among
        exact induction item inside below

/-- The operands of a list operator are lists. -/
theorem WellFormed.isList_of_mem {list : ListOperator} {operands : List (Query ω)} {weights : List ω}
    (wellFormed : WellFormed analyzer (.apply (.list list) operands weights)) :
    ∀ operand ∈ operands, operand.isList = true := by
  cases wellFormed with
  | apply named weighs kinds each => exact List.forall_mem_map.mpr kinds

theorem WellFormed.operand {operands : List (Query ω)} {weights : List ω}
    (wellFormed : WellFormed analyzer (.apply operator operands weights)) :
    ∀ operand ∈ operands, operand.WellFormed analyzer :=
  fun operand member =>
    wellFormed.part (mem_parts_apply.mpr (.inr ⟨operand, member, mem_parts_self operand⟩))

/-! ## Queries that are read -/

/-- A query that an operator admits is of the operator's kind in the form in which it is taken. -/
theorem WellFormed.take (wellFormed : query.WellFormed analyzer) (admits : operator.Admits query) :
    (operator.take query).isList = operator.isList ∧ (operator.take query).WellFormed analyzer := by
  rw [Operator.take]
  cases kind : operator.isList with
  | true => exact ⟨admits kind, wellFormed⟩
  | false =>
      cases isList : query.isList with
      | true => exact ⟨rfl, .score isList wellFormed⟩
      | false => exact ⟨isList, wellFormed⟩

theorem StandsFor.wellFormed {word : String} {terms : List (Query ω)}
    (standsFor : StandsFor analyzer word terms) :
    ∀ term ∈ terms, term.WellFormed analyzer ∧ term.isList = true := by
  rcases standsFor with ⟨-, rfl⟩ | ⟨text, name, field, -, -, -, rfl⟩
  · exact List.forall_mem_map.mpr fun text found => ⟨.term .body found, rfl⟩
  · exact List.forall_mem_map.mpr fun text found => ⟨.term field found, rfl⟩

mutual

theorem Items.isOperand {tokens : List Token} {items : List (ω × Query ω)} {operator : Operator} :
    Items analyzer operator tokens items → ∀ item ∈ items, IsOperand analyzer operator item
  | .nil => by simp
  | .plain unweighted head tail => by
      have weighs : operator.Weighs (1 : ω) := by
        rw [Operator.Weighs, unweighted]
        rfl
      intro item member
      rcases List.mem_append.mp member with first | later
      · obtain ⟨query, inside, rfl⟩ := List.mem_map.mp first
        obtain ⟨kind, wellFormed⟩ := head.wellFormed query inside
        exact ⟨weighs, kind, wellFormed⟩
      · exact tail.isOperand item later
  | @Items.weighted _ _ _ _ _ weight _ _ _ _ isWeighted isWeight head tail => by
      have weighs : operator.Weighs weight := by
        rw [Operator.Weighs, isWeighted]
        exact isWeight.2
      intro item member
      rcases List.mem_append.mp member with first | later
      · obtain ⟨query, inside, rfl⟩ := List.mem_map.mp first
        obtain ⟨kind, wellFormed⟩ := head.wellFormed query inside
        exact ⟨weighs, kind, wellFormed⟩
      · exact tail.isOperand item later

theorem Operand.wellFormed {tokens : List Token} {queries : List (Query ω)} {operator : Operator} :
    Operand analyzer operator tokens queries →
      ∀ query ∈ queries, query.isList = operator.isList ∧ query.WellFormed analyzer
  | .terms _ standsFor => by
      refine List.forall_mem_map.mpr fun term member => ?_
      obtain ⟨wellFormed, isList⟩ := standsFor.wellFormed term member
      exact wellFormed.take fun _ => isList
  | @Operand.apply _ _ _ _ inner word tokens items named admits inside => by
      have wellFormed := WellFormed.of_isOperand (Operator.isNamed_label word named) inside.isOperand
      exact List.forall_mem_singleton.mpr (wellFormed.take admits)

end

/-- Every query that is read is well formed. -/
theorem wellFormed_of_parse {engine : Engine ω} {text : String}
    (parsed : engine.parse text = .ok query) : query.WellFormed engine.analyzer := by
  have named := Operator.isNamed_label_defaultOperator engine.model
  obtain ⟨items, derives, rfl⟩ := (parse_eq_ok_iff_of_isNamed named).mp parsed
  exact .of_isOperand named derives.isOperand

/-! ## Queries that are pruned -/

theorem weighed_map (items : List (ω × Query ω)) :
    weighed (items.map Prod.fst) (items.map Prod.snd) = items := by
  induction items with
  | nil => rfl
  | cons item items induction =>
      rw [List.map_cons, List.map_cons, weighed_cons, List.headD_cons, List.tail_cons, induction]

theorem Trims.isList_eq {kept : Query ω} (trims : query.Trims kept) : kept.isList = query.isList := by
  cases trims <;> rfl

theorem TrimsEach.isOperand {operator : Operator} {items kept : List (ω × Query ω)} :
    TrimsEach items kept → (∀ item ∈ items, operator.Weighs item.1) →
      (∀ item ∈ items, item.2.isList = operator.isList) →
      (∀ item ∈ items, ∀ trimmed, item.2.Trims trimmed → item.2.terms ≠ [] →
        trimmed.WellFormed analyzer) →
      ∀ item ∈ kept, IsOperand analyzer operator item
  | .nil, _, _, _ => by simp
  | .drop _ later, weighs, kinds, each =>
      later.isOperand (fun item member => weighs item (List.mem_cons_of_mem _ member))
        (fun item member => kinds item (List.mem_cons_of_mem _ member))
        fun item member => each item (List.mem_cons_of_mem _ member)
  | .keep occurs head later, weighs, kinds, each => by
      obtain ⟨weight, otherWeights⟩ := List.forall_mem_cons.mp weighs
      obtain ⟨kind, otherKinds⟩ := List.forall_mem_cons.mp kinds
      obtain ⟨wellFormed, others⟩ := List.forall_mem_cons.mp each
      exact List.forall_mem_cons.mpr
        ⟨⟨weight, head.isList_eq.trans kind, wellFormed _ head occurs⟩,
          later.isOperand otherWeights otherKinds others⟩

/-- What remains of a well-formed query is well formed. -/
theorem WellFormed.trims (wellFormed : query.WellFormed analyzer) :
    ∀ kept, query.Trims kept → query.terms ≠ [] → kept.WellFormed analyzer := by
  induction wellFormed with
  | term field found =>
      intro kept trims _
      cases trims
      exact .term field found
  | @score list isList inside induction =>
      intro kept trims occurs
      obtain ⟨items, each, rfl⟩ := trims.exists_items
      -- The only operand has the terms of the query, so it remains.
      cases each with
      | drop absent later =>
          exact absurd (terms_apply_eq_nil_iff.mpr (List.forall_mem_singleton.mpr absent)) occurs
      | keep occursHere head later =>
          cases later with
          | nil => exact .score (head.isList_eq.trans isList) (induction _ head occursHere)
  | apply named weighs kinds inside induction =>
      intro kept trims _
      obtain ⟨items, each, rfl⟩ := trims.exists_items
      rw [weighed_map] at each
      exact .of_isOperand named (each.isOperand weighs kinds induction)

theorem WellFormed.prune {kept : Query ω} (wellFormed : query.WellFormed analyzer)
    (pruned : query.prune = some kept) : kept.WellFormed analyzer :=
  wellFormed.trims kept (trims_of_prune pruned).2 (trims_of_prune pruned).1

/-- A plan is well formed and complete throughout. -/
theorem wellFormed_of_plan {engine : Engine ω} {text : String}
    (planned : engine.plan text = .ok (some query)) :
    query.WellFormed engine.analyzer ∧ ∀ part ∈ query.parts, part.IsComplete := by
  rw [Engine.plan] at planned
  split at planned
  · next parsed found =>
      have pruned := Except.ok.inj planned
      exact ⟨(wellFormed_of_parse found).prune pruned, isComplete_of_prune pruned⟩
  · cases planned

/-- A plan is a scoring operator. -/
theorem isList_of_plan {engine : Engine ω} {text : String}
    (planned : engine.plan text = .ok (some query)) : query.isList = false := by
  have named := Operator.isNamed_label_defaultOperator engine.model
  rw [Engine.plan] at planned
  split at planned
  · next parsed found =>
      obtain ⟨items, -, rfl⟩ := (parse_eq_ok_iff_of_isNamed named).mp found
      rw [(trims_of_prune (Except.ok.inj planned)).2.isList_eq]
      cases engine.model <;> rfl
  · cases planned

end Query

end Retrieval
