import Mathlib.Data.List.Basic
import Retrieval.Proofs.Number.Magnitude
import Retrieval.Proofs.Query.RoundTrip

/-!
# What an expanded query means

An expanded query is put together as a text. Its parts are cut by blanks and parentheses, so each of
them keeps its tokens and its derivation: the query that was expanded stands as one operand, whatever
it is, the added terms are the operands of the other one, and each number is the weight of the operand
behind it.
-/

namespace Retrieval

namespace Query

variable {ω : Type} [Arithmetic ω] {analyzer : Analyzer}

/-- The operands that added terms stand for: the scores in the body of what analysis finds in them. -/
def addedItems (analyzer : Analyzer) (terms : List (ExpansionTerm ω)) : List (ω × Query ω) :=
  terms.flatMap fun term =>
    (analyzer.analyze term.term).map fun text => (term.weight, (Query.term text .body).score)

/-- A query beside the operands that are added to it, with the weights of both. -/
def withItems (query : Query ω) (items : List (ω × Query ω)) (queryWeight : ω) : Query ω :=
  .apply (.scoring .wand)
    [query, .apply (.scoring .wand) (items.map Prod.snd) (items.map Prod.fst)]
    [queryWeight, roundToFourPlaces (1 - queryWeight)]

/-- A query beside the query for the added terms: their scores in the body, each with its weight. -/
def withTerms (query : Query ω) (terms : List (ExpansionTerm ω)) (queryWeight : ω) : Query ω :=
  query.withItems (terms.map fun term => (term.weight, (Query.term term.term .body).score))
    queryWeight

/-- The weight can be read where it is written, and it is allowed: finite and not negative. -/
structure IsWritten (weight : ω) : Prop where
  /-- What is written is read again. -/
  readsBack : ReadsBack weight
  /-- The weight is neither infinite nor undefined. -/
  finite : Arithmetic.isFinite weight = true
  /-- The weight is not negative. -/
  nonneg : 0 ≤ weight

theorem IsWritten.isWeight {weight : ω} (written : IsWritten weight) :
    IsWeight (Arithmetic.write weight) weight :=
  ⟨written.readsBack.2, written.finite, written.nonneg⟩

theorem isWritten_of_printed {log : Float → Float} {weight : FloatWith log}
    (printed : Arithmetic.read? (Arithmetic.write weight) = some weight)
    (allowed : Arithmetic.isFinite weight = true ∧ 0 ≤ weight) : IsWritten weight :=
  ⟨⟨Number.isWord_writeFloat weight, printed⟩, allowed.1, allowed.2⟩

/-- A term that can be added to a query, as analysis spells terms and with a weight to be read. -/
structure Addable (term : ExpansionTerm ω) : Prop where
  /-- It is spelled like a term. -/
  isTerm : Analyzer.IsTerm term.term
  /-- Its weight can be read. -/
  written : IsWritten term.weight

theorem addedItems_eq_map {terms : List (ExpansionTerm ω)}
    (analyzed : ∀ term ∈ terms, analyzer.analyze term.term = [term.term]) :
    addedItems analyzer terms =
      terms.map fun term => (term.weight, (Query.term term.term .body).score) := by
  rw [addedItems, List.map_eq_flatMap]
  apply List.flatMap_congr
  intro term member
  rw [analyzed term member]
  rfl

/-! ## Added terms -/

theorem Addable.operand {term : ExpansionTerm ω} (addable : Addable term) :
    Operand analyzer (.scoring .wand) [.word term.term]
      (((analyzer.analyze term.term).map fun text => (Query.term text .body : Query ω)).map
        (Operator.take (.scoring .wand))) := by
  have noOperator : term.term.toList.head? ≠ some '#' := by
    simpa using addable.isTerm.head?_append_ne_sign []
  exact .terms noOperator (.inl ⟨addable.isTerm.point_notMem, rfl⟩)

theorem items_of_addable {terms : List (ExpansionTerm ω)}
    (addable : ∀ term ∈ terms, Addable term) :
    Items analyzer (.scoring .wand)
      (terms.flatMap fun term => [.word (Arithmetic.write term.weight), .word term.term])
      (addedItems analyzer terms) := by
  induction terms with
  | nil => exact .nil
  | cons term terms induction =>
      rw [List.forall_mem_cons] at addable
      have items := Items.weighted rfl addable.1.written.isWeight addable.1.operand
        (induction addable.2)
      rw [List.map_map, List.map_map] at items
      exact items

theorem scan_expansionQuery {terms : List (ExpansionTerm ω)}
    (addable : ∀ term ∈ terms, Addable term) :
    Token.scan (expansionQuery terms) = .word "#wand" ::
      (terms.flatMap fun term => [.word (Arithmetic.write term.weight), .word term.term]) ++
        [.close] := by
  have label : "#wand(" = "#wand" ++ "(" := by decide
  rw [expansionQuery, label, Token.scan_call (by decide), Token.scan_intercalate,
    List.flatMap_map]
  congr 2
  apply List.flatMap_congr
  intro term member
  rw [Token.scan_spaced, Token.scan_word (addable term member).written.readsBack.1,
    Token.scan_word (addable term member).isTerm.isWord_alone]
  rfl

theorem operand_expansionQuery (analyzer : Analyzer) {terms : List (ExpansionTerm ω)}
    (addable : ∀ term ∈ terms, Addable term) :
    Operand analyzer (.scoring .wand) (Token.scan (expansionQuery terms))
      [.apply (.scoring .wand) ((addedItems analyzer terms).map Prod.snd)
        ((addedItems analyzer terms).map Prod.fst)] := by
  have named : Operator.IsNamed "#wand" (.scoring .wand) := rfl
  rw [scan_expansionQuery addable]
  exact @Operand.apply ω _ _ (.scoring .wand) _ _ _ _ named (fun kind => kind)
    (items_of_addable addable)

/-! ## Expanded queries -/

theorem scan_expandedQuery (text expansion : String) {queryWeight : ω}
    (first : Token.IsWord (Arithmetic.write queryWeight))
    (second : Token.IsWord (Arithmetic.write (roundToFourPlaces (1 - queryWeight)))) :
    Token.scan (expandedQuery text expansion queryWeight) = .word "#wand" ::
      (.word (Arithmetic.write queryWeight) :: (.word "#and" :: Token.scan text ++ [.close]) ++
        (.word (Arithmetic.write (roundToFourPlaces (1 - queryWeight))) :: Token.scan expansion)) ++
          [.close] := by
  have parts : expandedQuery text expansion queryWeight = "#wand" ++ "(" ++
      (Arithmetic.write queryWeight ++ " " ++ ("#and" ++ "(" ++ text ++ ")") ++ " " ++
        (Arithmetic.write (roundToFourPlaces (1 - queryWeight)) ++ " " ++ expansion)) ++ ")" := by
    have label : "#wand(" = "#wand" ++ "(" := by decide
    have inner : " #and(" = " " ++ ("#and" ++ "(") := by decide
    have between : ") " = ")" ++ " " := by decide
    rw [expandedQuery, label, inner, between]
    simp only [String.append_assoc]
  rw [parts, Token.scan_call (by decide), Token.scan_spaced, Token.scan_spaced, Token.scan_spaced,
    Token.scan_call (by decide), Token.scan_word first, Token.scan_word second]
  rfl

theorem operand_expandedQuery {text : String} {items : List (ω × Query ω)}
    {terms : List (ExpansionTerm ω)} {queryWeight : ω}
    (derives : Items analyzer (.scoring .and) (Token.scan text) items)
    (addable : ∀ term ∈ terms, Addable term)
    (first : IsWritten queryWeight) (second : IsWritten (roundToFourPlaces (1 - queryWeight))) :
    Operand analyzer (.scoring .and)
      (Token.scan (expandedQuery text (expansionQuery terms) queryWeight))
      [withItems (.apply (.scoring .and) (items.map Prod.snd) (items.map Prod.fst))
        (addedItems analyzer terms) queryWeight] := by
  have andNamed : Operator.IsNamed "#and" (.scoring .and) := rfl
  have wandNamed : Operator.IsNamed "#wand" (.scoring .wand) := rfl
  have query := @Operand.apply ω _ _ (.scoring .wand) _ _ _ _ andNamed (by decide) derives
  have added := Items.weighted rfl second.isWeight (operand_expansionQuery analyzer addable) .nil
  have both := Items.weighted rfl first.isWeight query added
  rw [scan_expandedQuery _ _ first.readsBack.1 second.readsBack.1]
  rw [List.append_nil] at added both
  exact @Operand.apply ω _ _ (.scoring .and) _ _ _ _ wandNamed (by decide) both

end Query

namespace Engine

/-- The parts of an expanded query keep their meaning where all weights can be read. -/
theorem parse_expandedQuery_of_addable {ω : Type} [Arithmetic ω] {engine : Engine ω}
    (operator : engine.model.defaultOperator = .scoring .and) {text : String} {query : Query ω}
    (parsed : engine.parse text = .ok query) {terms : List (ExpansionTerm ω)} {queryWeight : ω}
    (addable : ∀ term ∈ terms, Query.Addable term) (first : Query.IsWritten queryWeight)
    (second : Query.IsWritten (roundToFourPlaces (1 - queryWeight))) :
    engine.parse (expandedQuery text (expansionQuery terms) queryWeight) =
      .ok (.apply (.scoring .and)
        [query.withItems (Query.addedItems engine.analyzer terms) queryWeight] [1]) := by
  have named := Operator.isNamed_label_defaultOperator engine.model
  obtain ⟨items, derives, rfl⟩ := (Query.parse_eq_ok_iff_of_isNamed named).mp parsed
  rw [operator] at derives
  have operands := Query.Items.plain rfl
    (Query.operand_expandedQuery derives addable first second) .nil
  rw [List.append_nil] at operands
  refine (Query.parse_eq_ok_iff_of_isNamed named).mpr ⟨[(1, _)], ?_, by rw [operator]; rfl⟩
  rw [operator]
  exact operands

/-- An expanded query is read as the query and the query for the added terms side by side, each with
its weight, if the weights are read as they are printed. -/
theorem parse_expandedQuery (engine : Engine Float) {parameters : Indri Float}
    (model : engine.model = .indri parameters) {text : String} {query : Query Float}
    (parsed : engine.parse text = .ok query) {terms : List (ExpansionTerm Float)}
    (analyzed : ∀ term ∈ terms, engine.analyzer.analyze term.term = [term.term])
    (usable : ∀ term ∈ terms, term.weight.isFinite = true ∧ 0 ≤ term.weight)
    {queryWeight : Float} (fraction : Arithmetic.isFraction queryWeight = true)
    (printed : ∀ weight ∈ queryWeight :: roundToFourPlaces (1 - queryWeight) ::
      terms.map (·.weight), Number.readFloat? (Number.writeFloat weight) = some weight) :
    engine.parse (expandedQuery text (expansionQuery terms) queryWeight) =
      .ok (.apply (.scoring .and) [query.withTerms terms queryWeight] [1]) := by
  have operator : engine.model.defaultOperator = .scoring .and := by rw [model]; rfl
  obtain ⟨printedQuery, printedRest, printedTerms⟩ :
      _ ∧ _ ∧ ∀ weight ∈ terms.map (·.weight), _ := by
    simpa only [List.forall_mem_cons] using printed
  have addable : ∀ term ∈ terms, Query.Addable term := fun term member =>
    ⟨Analyzer.isTerm_of_mem_analyze (by rw [analyzed term member]; exact List.mem_cons_self),
      Query.isWritten_of_printed (printedTerms _ (List.mem_map_of_mem member)) (usable term member)⟩
  rw [parse_expandedQuery_of_addable operator parsed addable
    (Query.isWritten_of_printed printedQuery (Number.finite_nonneg_of_isFraction fraction))
    (Query.isWritten_of_printed printedRest (Number.roundToFourPlaces_one_sub fraction)),
    Query.addedItems_eq_map analyzed, Query.withTerms]

private theorem items_near :
    Query.Items (.ofStopwords []) (.scoring .and) (Token.scan "#near/1(apple pie)")
      [(1, (.apply (.list (.near 1)) [.term "apple" .body, .term "pie" .body] [1, 1] :
        Query Float).score)] := by
  have operand : ∀ text, '.' ∉ text.toList → text.toList.head? ≠ some '#' →
      (Analyzer.ofStopwords []).analyze text = [text] →
      Query.Operand (.ofStopwords []) (.list (.near 1)) [.word text]
        [(.term text .body : Query Float)] :=
    fun text noPoint noOperator analyzed =>
      .terms noOperator (.inl ⟨noPoint, by rw [analyzed, List.map_singleton]⟩)
  have apple := operand "apple" (by decide) (by decide)
    (Analyzer.analyze_eq_singleton (by decide) (by decide +kernel))
  have pie := operand "pie" (by decide) (by decide)
    (Analyzer.analyze_eq_singleton (by decide) (by decide +kernel))
  have named : Operator.IsNamed "#near/1" (.list (.near 1)) :=
    ⟨['1'], by decide, by decide, rfl, by decide⟩
  exact .plain rfl (.apply named (by decide) (.plain rfl apple (.plain rfl pie .nil))) .nil

theorem parse_expandedQuery_near :
    let engine : Engine Float := ⟨.ofDocuments [] [], .indri .usual, .ofStopwords []⟩
    let query : Query Float := .apply (.scoring .and) [(Query.apply (.list (.near 1))
      [.term "apple" .body, .term "pie" .body] [1, 1]).score] [1]
    let terms : List (ExpansionTerm Float) := [⟨"pie", 0.25⟩, ⟨"tree", 0.0⟩]
    engine.parse "#near/1(apple pie)" = .ok query ∧
      engine.parse (expandedQuery "#near/1(apple pie)" (expansionQuery terms) 0.3) =
        .ok (.apply (.scoring .and) [query.withTerms terms 0.3] [1]) := by
  intro engine query terms
  have parsed : engine.parse "#near/1(apple pie)" = .ok query :=
    (Query.parse_eq_ok_iff_of_isNamed (Operator.isNamed_label_defaultOperator engine.model)).mpr
      ⟨_, items_near, rfl⟩
  refine ⟨parsed, parse_expandedQuery engine rfl parsed ?_ ?_ ?_ ?_⟩
  · rw [List.forall_mem_cons, List.forall_mem_singleton]
    exact ⟨Analyzer.analyze_eq_singleton (by decide) (by decide +kernel),
      Analyzer.analyze_eq_singleton (by decide) (by decide +kernel)⟩
  · rw [List.forall_mem_cons, List.forall_mem_singleton]
    exact ⟨⟨by decide, by decide⟩, ⟨by decide, by decide⟩⟩
  · decide
  · decide +kernel

end Engine

end Retrieval
