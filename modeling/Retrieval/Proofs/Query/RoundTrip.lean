import Mathlib.Data.List.Basic
import Retrieval.Proofs.Query.Grammar
import Retrieval.Proofs.Query.Spelling

/-!
# Reading what has been written

The text of a query that has been read derives an operand again: each operand is written with its weight,
each term with its field, and the scores of lists, which are not written, come back from the kind of the
operator around them. A query read from its own text is therefore the only operand of the default
operator.
-/

namespace Retrieval

namespace Query

variable {ω : Type}

/-! ## What is written -/

mutual

/-- The texts of the terms of a query. -/
def termTexts : Query ω → List String
  | .term text _ => [text]
  | .apply _ operands _ => termTextsEach operands

/-- The texts of the terms of several queries. -/
def termTextsEach : List (Query ω) → List String
  | [] => []
  | query :: later => query.termTexts ++ termTextsEach later

end

mutual

/-- The weights that the text of a query shows. -/
def shownWeights : Query ω → List ω
  | .term .. => []
  | .apply operator operands weights =>
      (if operator.isWeighted then weights else []) ++ shownWeightsEach operands

/-- The weights that the texts of several queries show. -/
def shownWeightsEach : List (Query ω) → List ω
  | [] => []
  | query :: later => query.shownWeights ++ shownWeightsEach later

end

theorem termTextsEach_eq_flatMap (queries : List (Query ω)) :
    termTextsEach queries = queries.flatMap termTexts := by
  induction queries with
  | nil => simp [termTextsEach]
  | cons query later induction => simp [termTextsEach, induction]

theorem shownWeightsEach_eq_flatMap (queries : List (Query ω)) :
    shownWeightsEach queries = queries.flatMap shownWeights := by
  induction queries with
  | nil => simp [shownWeightsEach]
  | cons query later induction => simp [shownWeightsEach, induction]

variable [Arithmetic ω] {analyzer : Analyzer} {operator : Operator} {query : Query ω}

/-- The weight can be read where it is written. -/
def ReadsBack (weight : ω) : Prop :=
  Token.IsWord (Arithmetic.write weight) ∧ Arithmetic.read? (Arithmetic.write weight) = some weight

/-- What a query shows can be read: analysis finds its terms in themselves, and its weights can be read
where they are written. -/
structure Legible (analyzer : Analyzer) (query : Query ω) : Prop where
  terms : ∀ term ∈ query.termTexts, analyzer.analyze term = [term]
  weights : ∀ weight ∈ query.shownWeights, ReadsBack weight

theorem Legible.operand {operands : List (Query ω)} {weights : List ω} (member : query ∈ operands)
    (legible : Legible analyzer (.apply operator operands weights)) : Legible analyzer query := by
  constructor
  · intro term inside
    refine legible.terms term ?_
    rw [termTexts, termTextsEach_eq_flatMap]
    exact List.mem_flatMap.mpr ⟨query, member, inside⟩
  · intro weight inside
    refine legible.weights weight ?_
    rw [shownWeights, shownWeightsEach_eq_flatMap]
    exact List.mem_append_right _ (List.mem_flatMap.mpr ⟨query, member, inside⟩)

theorem Legible.readsBack {operands : List (Query ω)} {weights : List ω} {weight : ω}
    (weighted : operator.isWeighted = true) (member : weight ∈ weights)
    (legible : Legible analyzer (.apply operator operands weights)) : ReadsBack weight := by
  refine legible.weights weight ?_
  rw [shownWeights, if_pos weighted]
  exact List.mem_append_left _ member

theorem Legible.of_take (legible : Legible analyzer (operator.take query)) :
    Legible analyzer query := by
  rw [Operator.take] at legible
  split at legible
  · exact legible.operand List.mem_cons_self
  · exact legible

theorem write_take (operator : Operator) (query : Query ω) :
    (operator.take query).write = query.write := by
  rw [Operator.take]
  split
  · simp [score, write, writeEach]
  · rfl

theorem write_apply (operands : List (Query ω)) (weights : List ω)
    (written : operator ≠ .scoring .score) :
    (apply operator operands weights).write =
      operator.label ++ "(" ++ writeOperands operator weights (operands.map write) ++ ")" := by
  rw [write.eq_def]
  dsimp only
  split
  · exact absurd rfl written
  · exact absurd rfl written
  · rw [writeEach_eq_map]

/-! ## The tokens of what is written -/

/-- The tokens of an operand with its weight. -/
def spelled (operator : Operator) (item : ω × Query ω) : List Token :=
  (if operator.isWeighted then [.word (Arithmetic.write item.1)] else []) ++ Token.scan item.2.write

theorem writeOperands_eq (operator : Operator) (items : List (ω × Query ω)) :
    writeOperands operator (items.map Prod.fst) ((items.map Prod.snd).map write) =
      " ".intercalate (items.map fun item =>
        if operator.isWeighted then Arithmetic.write item.1 ++ " " ++ item.2.write
        else item.2.write) := by
  rw [writeOperands]
  congr 1
  apply List.ext_getElem
  · simp
  · intro place inside _
    have placed : place < items.length := by simpa using inside
    simp [weightAt, placed]

theorem scan_writeOperands {items : List (ω × Query ω)}
    (words : operator.isWeighted = true → ∀ item ∈ items, Token.IsWord (Arithmetic.write item.1)) :
    Token.scan (writeOperands operator (items.map Prod.fst) ((items.map Prod.snd).map write)) =
      items.flatMap (spelled operator) := by
  rw [writeOperands_eq, Token.scan_intercalate, List.flatMap_map]
  apply List.flatMap_congr
  intro item member
  rw [spelled]
  cases weighted : operator.isWeighted with
  | false => rfl
  | true =>
      simp only [if_true]
      rw [Token.scan_spaced, Token.scan_word (words weighted item member)]

/-- An operand is written so that it is read again, with its weight if it shows one. -/
structure Rereads (analyzer : Analyzer) (operator : Operator) (item : ω × Query ω) : Prop where
  weight : operator.isWeighted = true →
    Token.IsWord (Arithmetic.write item.1) ∧ IsWeight (Arithmetic.write item.1) item.1
  weight_eq_one : operator.isWeighted = false → item.1 = 1
  operand : Operand analyzer operator (Token.scan item.2.write) [item.2]

theorem Items.of_rereads {items : List (ω × Query ω)}
    (reread : ∀ item ∈ items, Rereads analyzer operator item) :
    Items analyzer operator (items.flatMap (spelled operator)) items := by
  induction items with
  | nil => exact .nil
  | cons item items induction =>
      rw [List.forall_mem_cons] at reread
      obtain ⟨first, later⟩ := reread
      rw [List.flatMap_cons, spelled]
      cases weighted : operator.isWeighted with
      | false =>
          obtain ⟨weight, query⟩ := item
          obtain rfl : weight = 1 := first.weight_eq_one weighted
          exact .plain weighted first.operand (induction later)
      | true => exact .weighted weighted (first.weight weighted).2 first.operand (induction later)

theorem scan_write {inner : Operator} {items : List (ω × Query ω)} {word : String}
    (named : inner.IsNamed word) (reread : ∀ item ∈ items, Rereads analyzer inner item) :
    Token.scan (apply inner (items.map Prod.snd) (items.map Prod.fst)).write =
      .word inner.label :: items.flatMap (spelled inner) ++ [.close] := by
  have written : inner ≠ .scoring .score := by
    rintro rfl
    exact named.elim
  rw [write_apply _ _ written, Token.scan_call inner.isWord_label,
    scan_writeOperands fun weighted item member => ((reread item member).weight weighted).1]

/-! ## Derivations of what is written -/

theorem Operand.of_term {text : String} (field : Field) (found : analyzer.analyze text = [text]) :
    Operand analyzer operator (Token.scan (term text field : Query ω).write)
      [operator.take (term text field : Query ω)] := by
  have isTerm : Analyzer.IsTerm text := Analyzer.isTerm_of_mem_analyze (by rw [found]; simp)
  have lower : Text.lowerAscii field.name = field.name := by
    cases field <;> rfl
  have standsFor : StandsFor analyzer (text ++ "." ++ field.name) [(term text field : Query ω)] :=
    .inr ⟨text, field.name, field, rfl, isTerm.point_notMem, lower, by rw [found]; rfl⟩
  have written : (term text field : Query ω).write = text ++ "." ++ field.name := by
    simp [write]
  rw [written, Token.scan_word (isTerm.isWord field)]
  exact .terms (isTerm.head?_ne_sign field) standsFor

mutual

/-- Operands that have been derived are written so that they are read again. -/
theorem Items.rereads {operator : Operator} {tokens : List Token} {items : List (ω × Query ω)} :
    Items analyzer operator tokens items →
      (∀ item ∈ items, Legible analyzer item.2) →
      (operator.isWeighted = true → ∀ item ∈ items, ReadsBack item.1) →
      ∀ item ∈ items, Rereads analyzer operator item
  | .nil => by
      intro _ _ item member
      exact absurd member List.not_mem_nil
  | .plain unweighted head tail => by
      intro legible readsBack item member
      rw [List.forall_mem_append] at legible
      rcases List.mem_append.mp member with first | later
      · obtain ⟨query, inside, rfl⟩ := List.mem_map.mp first
        have operand := head.rereads
          (fun query inside => legible.1 _ (List.mem_map_of_mem inside)) query inside
        exact ⟨fun weighted => absurd weighted (by simp [unweighted]), fun _ => rfl, operand⟩
      · exact tail.rereads legible.2 (fun weighted => absurd weighted (by simp [unweighted])) item later
  | .weighted isWeighted isWeight head tail => by
      intro legible readsBack item member
      rw [List.forall_mem_append] at legible
      rcases List.mem_append.mp member with first | later
      · have back := readsBack isWeighted item (List.mem_append_left _ first)
        obtain ⟨query, inside, rfl⟩ := List.mem_map.mp first
        have operand := head.rereads
          (fun query inside => legible.1 _ (List.mem_map_of_mem inside)) query inside
        exact ⟨fun _ => ⟨back.1, back.2, isWeight.2⟩,
          fun unweighted => absurd isWeighted (by simp [unweighted]), operand⟩
      · exact tail.rereads legible.2
          (fun weighted item member => readsBack weighted item (List.mem_append_right _ member)) item
          later

/-- An operand that has been derived is written as an operand. -/
theorem Operand.rereads {operator : Operator} {tokens : List Token} {queries : List (Query ω)} :
    Operand analyzer operator tokens queries →
      (∀ query ∈ queries, Legible analyzer query) →
      ∀ query ∈ queries, Operand analyzer operator (Token.scan query.write) [query]
  | .terms _ standsFor => by
      intro legible query member
      have ofTaken := legible query member
      obtain ⟨found, inside, rfl⟩ := List.mem_map.mp member
      obtain ⟨text, field, rfl⟩ := standsFor.exists_eq_term inside
      rw [write_take]
      exact .of_term field (ofTaken.of_take.terms text (by simp [termTexts]))
  | @Operand.apply _ _ _ _ inner word tokens items named admits inside => by
      intro legible query member
      have ofTaken := legible query member
      obtain rfl := List.mem_singleton.mp member
      have ofApply := ofTaken.of_take
      have reread : ∀ item ∈ items, Rereads analyzer inner item :=
        inside.rereads (fun item member => ofApply.operand (List.mem_map_of_mem member))
          fun weighted item member => ofApply.readsBack weighted (List.mem_map_of_mem member)
      rw [write_take, scan_write named reread]
      exact .apply (Operator.isNamed_label word named) admits (.of_rereads reread)

end

end Query

/-! ## Round trips -/

namespace Engine

variable {ω : Type} [Arithmetic ω]

theorem parse_write_of_legible {engine : Engine ω} {text : String} {query : Query ω}
    (parsed : engine.parse text = .ok query) (legible : query.Legible engine.analyzer) :
    engine.parse query.write = .ok (.apply engine.model.defaultOperator [query] [1]) := by
  have named := Operator.isNamed_label_defaultOperator engine.model
  have noList : engine.model.defaultOperator.isList = false := by
    cases engine.model <;> rfl
  have unweighted : engine.model.defaultOperator.isWeighted = false := by
    cases engine.model <;> rfl
  obtain ⟨items, derives, rfl⟩ := (Query.parse_eq_ok_iff_of_isNamed named).mp parsed
  have taken : ∀ (operands : List (Query ω)) (weights : List ω),
      engine.model.defaultOperator.take (.apply engine.model.defaultOperator operands weights) =
        .apply engine.model.defaultOperator operands weights := by
    intro operands weights
    simp [Operator.take, Query.isList, noList]
  have outer : Query.Operand engine.analyzer engine.model.defaultOperator _ _ :=
    .apply named (fun kind => kind) derives
  rw [taken] at outer
  have operand := outer.rereads (List.forall_mem_singleton.mpr legible) _ List.mem_cons_self
  refine (Query.parse_eq_ok_iff_of_isNamed named).mpr ⟨[(1, _)], ?_, rfl⟩
  have items := Query.Items.plain unweighted operand .nil
  rw [List.append_nil] at items
  exact items

/-- The text of a query is read as the query itself, the only operand of the default operator, if
analysis finds each term in itself and the weights are read as they are printed. -/
theorem parse_write (engine : Engine Float) {text : String} {query : Query Float}
    (parsed : engine.parse text = .ok query)
    (analyzed : ∀ term ∈ query.termTexts, engine.analyzer.analyze term = [term])
    (printed : ∀ weight ∈ query.shownWeights,
      Number.readFloat? (Number.writeFloat weight) = some weight) :
    engine.parse query.write = .ok (.apply engine.model.defaultOperator [query] [1]) :=
  parse_write_of_legible parsed ⟨analyzed, fun weight member =>
    ⟨Number.isWord_writeFloat weight, printed weight member⟩⟩

private theorem analyze_cat : (Analyzer.ofStopwords []).analyze "cat" = ["cat"] :=
  Analyzer.analyze_eq_singleton (by decide) (by decide +kernel)

theorem parse_write_weighted :
    let engine : Engine Float := ⟨.ofDocuments [] [], .unrankedBoolean, .ofStopwords []⟩
    let query : Query Float :=
      .apply (.scoring .or) [.apply (.scoring .wsum) [(Query.term "cat" .title).score] [0.6]] [1]
    engine.parse "#wsum(0.6 cat.title)" = .ok query ∧
      engine.parse query.write = .ok (.apply (.scoring .or) [query] [1]) := by
  intro engine query
  have standsFor : Query.StandsFor engine.analyzer "cat.title" [(.term "cat" .title : Query Float)] :=
    .inr ⟨"cat", "title", .title, rfl, by decide, rfl, by rw [analyze_cat]; rfl⟩
  have isWeight : Query.IsWeight "0.6" (0.6 : Float) := ⟨rfl, rfl, by decide⟩
  have named : Operator.IsNamed "#wsum" (.scoring .wsum) := rfl
  have operand := @Query.Operand.terms Float _ _ (.scoring .wsum) _ _ (by decide) standsFor
  have inside := Query.Items.weighted rfl isWeight operand .nil
  have outer := @Query.Operand.apply Float _ _ (.scoring .or) _ _ _ _ named (by decide) inside
  have derives := Query.Items.plain rfl outer .nil
  have parsed : engine.parse "#wsum(0.6 cat.title)" = .ok query :=
    (Query.parse_eq_ok_iff_of_isNamed (Operator.isNamed_label_defaultOperator engine.model)).mpr
      ⟨_, derives, rfl⟩
  refine ⟨parsed, parse_write engine parsed ?_ ?_⟩
  · exact List.forall_mem_singleton.mpr analyze_cat
  · exact List.forall_mem_singleton.mpr rfl

end Engine

end Retrieval
