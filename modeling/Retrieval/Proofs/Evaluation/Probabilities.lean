import Retrieval.Proofs.Evaluation.Scan
import Retrieval.Proofs.Posting.Lengths
import Retrieval.Proofs.Query.Parts
import Retrieval.Proofs.Query.Pruned
import Retrieval.Proofs.Query.Spelling
import Retrieval.Proofs.Scoring.Probability

/-!
# Scores of Indri are probabilities

Where all lists fit into their fields and smoothing has any weight, every score that Indri gives in exact
arithmetic is a probability other than zero, and so is every default score: a document keeps a score
however many operands it does not match. Without these conditions it may not be so.
-/

namespace Retrieval

open ExactArithmetic

namespace Query

variable {ω : Type} [Arithmetic ω] {index : Index}

theorem defaultsAt_eq_mapM (index : Index) (model : Model ω) (document : DocumentId)
    (queries : List (Query ω)) :
    defaultsAt index model document queries = queries.mapM (defaultAt index model document) := by
  induction queries with
  | nil => rfl
  | cons query later induction => rw [defaultsAt, List.mapM_cons, induction]

/-- The default score of an operator that combines those of its operands. -/
theorem defaultAt_apply {parameters : Indri ω} {document : DocumentId} {operator : ScoringOperator}
    (combines : operator = .and ∨ operator = .or ∨ operator = .wand ∨ operator = .wsum)
    (operands : List (Query ω)) (weights : List ω) :
    (apply (.scoring operator) operands weights).defaultAt index (.indri parameters) document =
      (operands.mapM (defaultAt index (.indri parameters) document)).map
        (combine operator weights) := by
  rcases combines with rfl | rfl | rfl | rfl <;> simp [defaultAt, defaultsAt_eq_mapM]

/-- All combining operators but the disjunction take default scores where operands do not match. -/
theorem combinedAt_of_ne_or {parameters : Indri ω} {document : DocumentId} {operator : ScoringOperator}
    (combines : operator = .and ∨ operator = .or ∨ operator = .wand ∨ operator = .wsum)
    (differs : operator ≠ .or) (weights : List ω) (scored : List (Query ω × Except Error ω)) :
    combinedAt index (.indri parameters) document operator weights scored =
      (presentOrDefaultAt index (.indri parameters) document scored).map
        (combine operator weights) := by
  rcases combines with rfl | rfl | rfl | rfl
  · rfl
  · exact absurd rfl differs
  · rfl
  · rfl

/-! ## Documents -/

/-- A query has documents of the collection only. -/
theorem lt_of_mem_documentsOn (wellFormed : index.WellFormed) {soft : Bool} {query : Query ω}
    {document : DocumentId} (member : document ∈ query.documentsOn index soft) :
    document < index.documentCount := by
  have ofList : ∀ list : Query ω, list.isList = true → document ∈ list.documentsOn index soft →
      document < index.documentCount := by
    intro list isList present
    rw [documentsOn_of_isList index soft isList, InvertedList.mem_documents] at present
    obtain ⟨posting, here, rfl⟩ := present
    exact ((listOn_wellFormed wellFormed list).posted posting here).bounded
  induction query using inductionOn with
  | term text field => exact ofList _ rfl member
  | apply operator operands weights induction =>
      cases operator with
      | list operator => exact ofList _ rfl member
      | scoring operator =>
          rw [documentsOn_scoring] at member
          obtain ⟨documents, among, present⟩ := Matching.exists_of_mem_documents member
          obtain ⟨operand, inside, rfl⟩ := List.mem_map.mp among
          exact induction operand inside present

/-! ## Scores -/

section Scores

variable {parameters : Indri ω} {document : DocumentId} {query : Query ω}

/-- The lists that the query scores have their places in fields of the collection, and their unions fit
into them. -/
structure Measured (index : Index) (query : Query ω) : Prop where
  /-- The field of each list is not empty throughout the collection. -/
  filled : ∀ list ∈ query.scoredLists, 0 < index.tokenCount list.field
  /-- No list with a union has more occurrences in a document than its field has tokens. -/
  unionFits : ∀ list ∈ query.scoredLists, list.hasUnion = true → list.Fits index

theorem Measured.fits (measured : Measured index query) (consistent : index.Consistent)
    {list : Query ω} (scored : list ∈ query.scoredLists) : list.Fits index := by
  cases union : list.hasUnion with
  | false => exact fits_of_hasUnion_eq_false consistent union
  | true => exact measured.unionFits list scored union

theorem Measured.operand {operator : ScoringOperator} {operands : List (Query ω)} {weights : List ω}
    (measured : Measured index (.apply (.scoring operator) operands weights)) {operand : Query ω}
    (member : operand ∈ operands) : Measured index operand := by
  have inside : ∀ list ∈ operand.scoredLists,
      list ∈ (apply (.scoring operator) operands weights).scoredLists := by
    intro list scored
    rw [scoredLists]
    exact mem_scoredListsOfEach.mpr ⟨operand, member, scored⟩
  exact ⟨fun list scored => measured.filled list (inside list scored),
    fun list scored => measured.unionFits list (inside list scored)⟩

/-- The conditions under which scores are probabilities. -/
structure Smoothed (index : Index) (parameters : Indri ω) : Prop where
  /-- The index is that of a collection. -/
  consistent : index.Consistent
  /-- The parameters are accepted. -/
  valid : parameters.validate = .ok ()
  /-- The collection has some weight. -/
  smooths : 0 < parameters.lambda ∨ 0 < parameters.mu

variable [ExactArithmetic ω]

theorem isProbability_smoothedAt (smoothed : Smoothed index parameters)
    (bounded : document < index.documentCount) {frequency : Nat}
    (short : frequency ≤ index.lengthAt query.field document)
    (filled : 0 < index.tokenCount query.field) (fits : query.Fits index) :
    ∃ score, query.smoothedAt index parameters document frequency = .ok score ∧
      IsProbability score := by
  have atMost : (query.listOn index).collectionFrequency ≤ index.tokenCount query.field := by
    rw [smoothed.consistent.tokenCount_eq]
    exact (listOn_wellFormed smoothed.consistent.wellFormed query).collectionFrequency_le fits
  refine ⟨_, by rw [smoothedAt, Index.fieldLength_eq _ bounded], ?_⟩
  exact Indri.isProbability_probability smoothed.valid smoothed.smooths (value_ofNat_nonneg frequency)
    (value_ofNat_le short) filled atMost

theorem nonneg_of_weighs {weights : List ω} (weighs : ∀ weight ∈ weights, weight = 1 ∨ 0 ≤ weight) :
    ∀ weight ∈ weights, 0 ≤ value weight := by
  intro weight member
  rcases weighs weight member with rfl | nonneg
  · simp
  · rwa [le_iff, value_zero] at nonneg

/-- The operators with a name, but for the sum. -/
theorem combines_of_ne {operator : ScoringOperator} (named : operator ≠ .score ∧ operator ≠ .not)
    (noSum : operator ≠ .sum) :
    operator = .and ∨ operator = .or ∨ operator = .wand ∨ operator = .wsum := by
  cases operator <;> simp_all

/-- The default score of a query is a probability. -/
theorem WellBuilt.isProbability_defaultAt (smoothed : Smoothed index parameters)
    (bounded : document < index.documentCount) (wellBuilt : query.WellBuilt)
    (noSum : .sum ∉ query.scoringOperators) (measured : Measured index query) :
    ∃ score, query.defaultAt index (.indri parameters) document = .ok score ∧
      IsProbability score := by
  induction wellBuilt with
  | @score list isList =>
      have scored : list ∈ list.score.scoredLists := by
        simp [Query.score, scoredLists, scoredListsOfEach, scoredLists_of_isList isList]
      exact isProbability_smoothedAt smoothed bounded (Nat.zero_le _) (measured.filled list scored)
        (measured.fits smoothed.consistent scored)
  | @apply operator operands weights named nonempty each weighs induction =>
      rw [scoringOperators, List.mem_cons, not_or, mem_scoringOperatorsOfEach, not_exists] at noSum
      obtain ⟨scores, answered, same, probabilities⟩ := exists_mapM_eq_ok fun operand member =>
        induction operand member (fun inside => noSum.2 operand ⟨member, inside⟩)
          (measured.operand member)
      have combines := combines_of_ne named (Ne.symm noSum.1)
      refine ⟨combine operator weights scores, ?_, isProbability_combine combines
        (nonneg_of_weighs weighs) probabilities fun none => nonempty ?_⟩
      · rw [defaultAt_apply combines, answered]
        rfl
      · exact List.length_eq_zero_iff.mp (same ▸ List.length_eq_zero_iff.mpr none)

/-- The operands that have the document are scored with probabilities, one for each. -/
theorem isProbability_presentAt (model : Model ω) {operands : List (Query ω)}
    (matched : ∀ operand ∈ operands, document ∈ operand.documentsOn index model.isSoft →
      ∃ score, operand.scoreAt index model document = .ok score ∧ IsProbability score)
    (present : ∃ operand ∈ operands, document ∈ operand.documentsOn index model.isSoft) :
    ∃ scores, presentAt index model.isSoft document (scoresAt index model document operands) =
      .ok scores ∧ scores ≠ [] ∧ ∀ score ∈ scores, IsProbability score := by
  rw [presentAt, scoresAt_eq_map]
  obtain ⟨scores, answered, same, probabilities⟩ :=
    @exists_mapM_eq_ok Error (Query ω × Except Error ω) ω Prod.snd IsProbability
      ((operands.map fun query => (query, query.scoreAt index model document)).filter
        fun pair => document ∈ pair.1.documentsOn index model.isSoft) (by
      intro item inside
      obtain ⟨among, has⟩ := List.mem_filter.mp inside
      obtain ⟨operand, member, rfl⟩ := List.mem_map.mp among
      exact matched operand member (by simpa using has))
  refine ⟨scores, answered, fun none => ?_, probabilities⟩
  obtain ⟨operand, member, has⟩ := present
  have counted : (operand, operand.scoreAt index model document) ∈
      (operands.map fun query => (query, query.scoreAt index model document)).filter
        fun pair => document ∈ pair.1.documentsOn index model.isSoft :=
    List.mem_filter.mpr ⟨List.mem_map.mpr ⟨operand, member, rfl⟩, by simpa using has⟩
  rw [none, List.length_nil, eq_comm, List.length_eq_zero_iff] at same
  exact absurd (same ▸ counted) List.not_mem_nil

/-- All operands are scored with probabilities, where they have the document and where they do not. -/
theorem isProbability_presentOrDefaultAt (model : Model ω) {operands : List (Query ω)}
    (matched : ∀ operand ∈ operands, document ∈ operand.documentsOn index model.isSoft →
      ∃ score, operand.scoreAt index model document = .ok score ∧ IsProbability score)
    (missed : ∀ operand ∈ operands,
      ∃ score, operand.defaultAt index model document = .ok score ∧ IsProbability score)
    (nonempty : operands ≠ []) :
    ∃ scores, presentOrDefaultAt index model document (scoresAt index model document operands) =
      .ok scores ∧ scores ≠ [] ∧ ∀ score ∈ scores, IsProbability score := by
  rw [presentOrDefaultAt, scoresAt_eq_map, List.mapM_map]
  obtain ⟨scores, answered, same, probabilities⟩ :=
    @exists_mapM_eq_ok Error (Query ω) ω (fun operand =>
      if document ∈ operand.documentsOn index model.isSoft then
        operand.scoreAt index model document
      else operand.defaultAt index model document) IsProbability operands (by
      intro operand member
      split
      · next has => exact matched operand member has
      · exact missed operand member)
  refine ⟨scores, answered, fun none => nonempty ?_, probabilities⟩
  rwa [none, List.length_nil, eq_comm, List.length_eq_zero_iff] at same

/-- The score of a document that the query matches is a probability. -/
theorem WellBuilt.isProbability_scoreAt (smoothed : Smoothed index parameters)
    (wellBuilt : query.WellBuilt) (noSum : .sum ∉ query.scoringOperators)
    (measured : Measured index query) (member : document ∈ query.documentsOn index true) :
    ∃ score, query.scoreAt index (.indri parameters) document = .ok score ∧ IsProbability score := by
  have bounded := lt_of_mem_documentsOn smoothed.consistent.wellFormed member
  induction wellBuilt with
  | @score list isList =>
      have scored : list ∈ list.score.scoredLists := by
        simp [Query.score, scoredLists, scoredListsOfEach, scoredLists_of_isList isList]
      have fits := measured.fits smoothed.consistent scored
      exact isProbability_smoothedAt smoothed bounded (fits.frequencyAt_le document)
        (measured.filled list scored) fits
  | @apply operator operands weights named nonempty each weighs induction =>
      rw [scoringOperators, List.mem_cons, not_or, mem_scoringOperatorsOfEach, not_exists] at noSum
      have matched : ∀ operand ∈ operands, document ∈ operand.documentsOn index true →
          ∃ score, operand.scoreAt index (.indri parameters) document = .ok score ∧
            IsProbability score := fun operand inside present =>
        induction operand inside (fun among => noSum.2 operand ⟨inside, among⟩)
          (measured.operand inside) present
      have missed : ∀ operand ∈ operands,
          ∃ score, operand.defaultAt index (.indri parameters) document = .ok score ∧
            IsProbability score := fun operand inside =>
        (each operand inside).isProbability_defaultAt smoothed bounded
          (fun among => noSum.2 operand ⟨inside, among⟩) (measured.operand inside)
      have combines := combines_of_ne named (Ne.symm noSum.1)
      rw [scoreAt]
      by_cases disjunction : operator = .or
      · subst disjunction
        rw [documentsOn_scoring] at member
        obtain ⟨documents, among, has⟩ := Matching.exists_of_mem_documents member
        obtain ⟨operand, inside, rfl⟩ := List.mem_map.mp among
        obtain ⟨scores, answered, some, probabilities⟩ :=
          isProbability_presentAt (.indri parameters) matched ⟨operand, inside, has⟩
        rw [combinedAt, answered]
        exact ⟨_, rfl, isProbability_noisyOr probabilities some⟩
      · obtain ⟨scores, answered, some, probabilities⟩ :=
          isProbability_presentOrDefaultAt (.indri parameters) matched missed nonempty
        rw [combinedAt_of_ne_or combines disjunction, answered]
        exact ⟨_, rfl, isProbability_combine combines (nonneg_of_weighs weighs) probabilities some⟩

end Scores

/-- The ranking of a query exists, and all its scores are probabilities. -/
theorem WellBuilt.isProbability_scan {parameters : Indri ω} [ExactArithmetic ω] {query : Query ω}
    (smoothed : Smoothed index parameters) (wellBuilt : query.WellBuilt)
    (noSum : .sum ∉ query.scoringOperators) (measured : Measured index query) :
    ∃ ranking, query.scan index (.indri parameters) = .ok ranking ∧
      ∀ scored ∈ ranking, IsProbability scored.score := by
  obtain ⟨scores, answered, -, probabilities⟩ :=
    @exists_mapM_eq_ok Error DocumentId (Scored ω) (query.scoredAt index (.indri parameters))
      (fun scored => IsProbability scored.score)
      ((query.documentsOn index (Model.indri parameters).isSoft).sort (· ≤ ·)) (by
      intro document member
      obtain ⟨score, scored, isProbability⟩ :=
        wellBuilt.isProbability_scoreAt smoothed noSum measured ((Finset.mem_sort _).mp member)
      exact ⟨⟨document, score⟩, by rw [scoredAt, scored]; rfl, isProbability⟩)
  refine ⟨Ranking.sort scores, by rw [scan, answered]; rfl, fun scored member => ?_⟩
  exact probabilities scored ((Ranking.sort_perm scores).mem_iff.mp member)

end Query

namespace Engine

theorem search_eq_evaluate {ω : Type} [Arithmetic ω] {engine : Engine ω} {text : String}
    {query : Query ω} (planned : engine.plan text = .ok (some query)) :
    engine.search text = engine.evaluate query := by
  rw [search, planned]
  rfl

/-- In exact arithmetic every score of a search under Indri is a probability other than zero, for all
accepted parameters that smooth and all queries without sums, if no scored list is in a field that is empty
throughout the collection and no union has more occurrences in a document than its field has tokens. -/
theorem search_mem_Ioc {ω : Type} [Arithmetic ω] [ExactArithmetic ω] (documents : List Document)
    (stopwords : List String) {parameters : Indri ω} (analyzer : Analyzer) {text : String}
    {plan : Option (Query ω)} (valid : parameters.validate = .ok ())
    (smooths : 0 < parameters.lambda ∨ 0 < parameters.mu) :
    let engine : Engine ω := ⟨.ofDocuments documents stopwords, .indri parameters, analyzer⟩
    engine.plan text = .ok plan → (∀ query ∈ plan, .sum ∉ query.scoringOperators) →
      (∀ query ∈ plan, query.Measured engine.index) →
      ∃ ranking, engine.search text = .ok ranking ∧
        ∀ scored ∈ ranking, value scored.score ∈ Set.Ioc 0 1 := by
  intro engine planned noSum measured
  cases plan with
  | none =>
      refine ⟨[], ?_, by simp⟩
      rw [search, planned]
      rfl
  | some query =>
      have ascending : engine.index.Ascending := Index.ofDocuments_ascending documents stopwords
      have smoothed : Query.Smoothed engine.index parameters :=
        ⟨Index.ofDocuments_consistent documents stopwords, valid, smooths⟩
      have wellBuilt := Query.wellBuilt_of_plan planned
      have nonempty : query.operands ≠ [] := by
        cases wellBuilt with
        | score isList => simp [Query.score, Query.operands]
        | apply named nonempty each weighs => exact nonempty
      rw [search_eq_evaluate planned, evaluate_eq_scan ascending nonempty]
      exact wellBuilt.isProbability_scan smoothed (noSum query rfl) (measured query rfl)

end Engine

/-! ## A collection of one word -/

/-- The index of one document, with one token in its body. -/
def oneWord : Index := .ofDocuments [⟨"first", ⟨["cat"], [], [], [], []⟩⟩] []

theorem invertedList_oneWord :
    oneWord.invertedList .body "cat" = ⟨.body, 1, 1, [⟨0, 1, [0]⟩]⟩ ∧
      ∀ field, oneWord.invertedList field "dog" = .empty field := by
  have entered :
      oneWord.lists = (∅ : ListTable).insert (.body, "cat") ⟨.body, 1, 1, [⟨0, 1, [0]⟩]⟩ := by
    simp [oneWord, Index.ofDocuments, ListTable.ofDocuments, ListTable.enterDocument, Field.all,
      FieldTable.get, ListTable.enterTokens, ListTable.find, InvertedList.enter, InvertedList.empty,
      InvertedList.cons, Posting.ofPositions]
  constructor
  · rw [Index.invertedList, entered, ListTable.find_insert, if_pos rfl]
  · intro field
    rw [Index.invertedList, entered, ListTable.find_insert, if_neg (by simp)]
    simp [ListTable.find]

/-- Parameters that give the collection no weight. -/
noncomputable def Indri.unsmoothed : Indri RealNumber := ⟨⟨0⟩, ⟨0⟩⟩

/-- The usual parameters, without rounding. -/
noncomputable def Indri.usualExactly : Indri RealNumber := ⟨⟨0.4⟩, ⟨2500⟩⟩

theorem Indri.validate_unsmoothed : unsmoothed.validate = .ok () := by
  rw [validate_eq_ok_iff, unsmoothed]
  norm_num

theorem Indri.validate_usualExactly : usualExactly.validate = .ok () := by
  rw [validate_eq_ok_iff, usualExactly]
  norm_num

/-- The engine of the collection of one word. -/
noncomputable def Engine.ofOneWord (parameters : Indri RealNumber) : Engine RealNumber :=
  ⟨oneWord, .indri parameters, .ofStopwords []⟩

namespace Query

theorem analyze_cat_dog : (Analyzer.ofStopwords []).analyze "cat" = ["cat"] ∧
    (Analyzer.ofStopwords []).analyze "dog" = ["dog"] :=
  ⟨Analyzer.analyze_eq_singleton (by decide) (by decide +kernel),
    Analyzer.analyze_eq_singleton (by decide) (by decide +kernel)⟩

theorem standsFor_cat : StandsFor (.ofStopwords []) "cat" [(term "cat" .body : Query RealNumber)] :=
  .inl ⟨by decide, by rw [analyze_cat_dog.1]; rfl⟩

theorem scan_eq_singleton {ω : Type} [Arithmetic ω] {index : Index} {model : Model ω}
    {query : Query ω} {document : DocumentId} {score : ω}
    (documents : query.documentsOn index model.isSoft = {document})
    (scored : query.scoreAt index model document = .ok score) :
    query.scan index model = .ok [⟨document, score⟩] := by
  have sorted : Ranking.sort [(⟨document, score⟩ : Scored ω)] = [⟨document, score⟩] :=
    List.perm_singleton.mp (Ranking.sort_perm _)
  rw [scan, documents, Finset.sort_singleton, List.mapM_cons, scoredAt, scored, List.mapM_nil]
  exact congrArg Except.ok sorted

variable (parameters : Indri RealNumber)

theorem smoothedAt_oneWord (query : Query RealNumber) (frequency : Nat) :
    query.smoothedAt oneWord parameters 0 frequency =
      .ok (parameters.probability (Arithmetic.ofNat frequency)
        (Arithmetic.ofNat (oneWord.lengthAt query.field 0)) (query.listOn oneWord).collectionFrequency
        (oneWord.tokenCount query.field)) := by
  rw [smoothedAt, Index.fieldLength_eq query.field (by decide : 0 < oneWord.documentCount)]

theorem presentOrDefaultAt_oneWord (operands : List (Query RealNumber)) :
    presentOrDefaultAt oneWord (.indri parameters) 0 (scoresAt oneWord (.indri parameters) 0 operands) =
      operands.mapM fun operand =>
        if 0 ∈ operand.documentsOn oneWord true then operand.scoreAt oneWord (.indri parameters) 0
        else operand.defaultAt oneWord (.indri parameters) 0 := by
  rw [presentOrDefaultAt, scoresAt_eq_map, List.mapM_map]
  rfl

/-! ### Two words -/

/-- Two words, of which the first occurs, and the second is sought in a field. -/
noncomputable def twoWords (field : Field) : Query RealNumber :=
  .apply (.scoring .and) [(term "cat" .body).score, (term "dog" field).score] [1, 1]

theorem plan_twoWords {text word : String} {field : Field}
    (scanned : Token.scan text = [.word "cat", .word word]) (plain : word.toList.head? ≠ some '#')
    (standsFor : StandsFor (.ofStopwords []) word [(term "dog" field : Query RealNumber)]) :
    (Engine.ofOneWord parameters).plan text = .ok (some (twoWords field)) := by
  have named := Operator.isNamed_label_defaultOperator (Model.indri parameters)
  have first : Operand (.ofStopwords []) (.scoring .and) _ _ := .terms (by decide) standsFor_cat
  have second : Operand (.ofStopwords []) (.scoring .and) _ _ := .terms plain standsFor
  have derives : Items (.ofStopwords []) (.scoring .and) [.word "cat", .word word] _ :=
    .plain rfl first (.plain rfl second .nil)
  rw [← scanned] at derives
  have parsed : (Engine.ofOneWord parameters).parse text = .ok (twoWords field) :=
    (parse_eq_ok_iff_of_isNamed named).mpr ⟨_, derives, rfl⟩
  rw [Engine.plan, parsed]
  rfl

theorem documentsOn_cat (soft : Bool) :
    documentsOn oneWord soft (term "cat" .body : Query RealNumber) = {0} := by
  rw [documentsOn_of_isList _ _ rfl, listOn_term, invertedList_oneWord.1]
  rfl

theorem documentsOn_dog (field : Field) :
    documentsOn oneWord true (term "dog" field : Query RealNumber) = ∅ := by
  rw [documentsOn_of_isList _ _ rfl, listOn_term, invertedList_oneWord.2]
  rfl

theorem documentsOn_twoWords (field : Field) :
    (twoWords field).documentsOn oneWord true = {0} := by
  simp [twoWords, Query.score, documentsOn_cat, documentsOn_dog, ScoringOperator.matching,
    Matching.documents]

/-- The first word is scored where it occurs, the second one by default. -/
theorem scoreAt_twoWords (field : Field) :
    (twoWords field).scoreAt oneWord (.indri parameters) 0 = .ok (combine .and [1, 1]
      [parameters.probability (Arithmetic.ofNat 1) (Arithmetic.ofNat 1) 1 1,
        parameters.probability (Arithmetic.ofNat 0) (Arithmetic.ofNat (oneWord.lengthAt field 0)) 0
          (oneWord.tokenCount field)]) := by
  have present : 0 ∈ documentsOn oneWord true (term "cat" .body : Query RealNumber).score := by
    simp [Query.score, documentsOn_cat, ScoringOperator.matching, Matching.documents]
  have absent : 0 ∉ documentsOn oneWord true (term "dog" field : Query RealNumber).score := by
    simp [Query.score, documentsOn_dog, ScoringOperator.matching, Matching.documents]
  have scored : scoreAt oneWord (.indri parameters) 0 (term "cat" .body : Query RealNumber).score =
      .ok (parameters.probability (Arithmetic.ofNat 1) (Arithmetic.ofNat 1) 1 1) := by
    change smoothedAt oneWord parameters 0 ((listOn oneWord (term "cat" .body)).frequencyAt 0) _ = _
    rw [smoothedAt_oneWord, listOn_term, invertedList_oneWord.1]
    rfl
  have default : defaultAt oneWord (.indri parameters) 0 (term "dog" field : Query RealNumber).score =
      .ok (parameters.probability (Arithmetic.ofNat 0) (Arithmetic.ofNat (oneWord.lengthAt field 0)) 0
        (oneWord.tokenCount field)) := by
    change smoothedAt oneWord parameters 0 0 _ = _
    rw [smoothedAt_oneWord, listOn_term, invertedList_oneWord.2]
    rfl
  change (presentOrDefaultAt oneWord (.indri parameters) 0 (scoresAt oneWord (.indri parameters) 0
    [(term "cat" .body).score, (term "dog" field).score])).map (combine .and [1, 1]) = _
  rw [presentOrDefaultAt_oneWord, List.mapM_cons, List.mapM_cons, if_pos present, if_neg absent, scored,
    default]
  rfl

theorem search_twoWords {text : String} {field : Field}
    (planned : (Engine.ofOneWord parameters).plan text = .ok (some (twoWords field))) :
    (Engine.ofOneWord parameters).search text = .ok [⟨0, combine .and [1, 1]
      [parameters.probability (Arithmetic.ofNat 1) (Arithmetic.ofNat 1) 1 1,
        parameters.probability (Arithmetic.ofNat 0) (Arithmetic.ofNat (oneWord.lengthAt field 0)) 0
          (oneWord.tokenCount field)]⟩] := by
  rw [Engine.search_eq_evaluate planned,
    Engine.evaluate_eq_scan (Index.ofDocuments_ascending _ _) (by simp [twoWords, Query.operands])]
  exact scan_eq_singleton (documentsOn_twoWords field) (scoreAt_twoWords parameters field)

theorem plan_cat_dog : (Engine.ofOneWord parameters).plan "cat dog" = .ok (some (twoWords .body)) :=
  @plan_twoWords parameters _ "dog" _ rfl (by decide)
    (.inl ⟨by decide, by rw [analyze_cat_dog.2]; rfl⟩)

theorem plan_cat_dogTitle :
    (Engine.ofOneWord parameters).plan "cat dog.title" = .ok (some (twoWords .title)) :=
  @plan_twoWords parameters _ "dog.title" _ rfl (by decide)
    (.inr ⟨"dog", "title", .title, by decide, by decide, by decide, by rw [analyze_cat_dog.2]; rfl⟩)

/-! ### A union of a word with itself -/

/-- The union of a word with itself. -/
noncomputable def wordTwice : Query RealNumber :=
  .apply (.list .syn) [.term "cat" .body, .term "cat" .body] [1, 1]

theorem plan_wordTwice : (Engine.ofOneWord parameters).plan "#syn(cat cat)" =
    .ok (some (.apply (.scoring .and) [wordTwice.score] [1])) := by
  have named := Operator.isNamed_label_defaultOperator (Model.indri parameters)
  have word : Operand (.ofStopwords []) (.list .syn) _ _ := .terms (by decide) standsFor_cat
  have inside := Items.plain rfl word (.plain rfl word .nil)
  have isSyn : Operator.IsNamed "#syn" (.list .syn) := rfl
  have union : Operand (.ofStopwords []) (.scoring .and) _ _ := .apply isSyn (by decide) inside
  have parsed : (Engine.ofOneWord parameters).parse "#syn(cat cat)" =
      .ok (.apply (.scoring .and) [wordTwice.score] [1]) :=
    (parse_eq_ok_iff_of_isNamed named).mpr ⟨_, .plain rfl union .nil, rfl⟩
  rw [Engine.plan, parsed]
  rfl

/-- Each occurrence counts twice. -/
theorem listOn_wordTwice : wordTwice.listOn oneWord = ⟨.body, 2, 1, [⟨0, 2, [0, 0]⟩]⟩ := by
  let word : Cursor RealNumber := .term "cat" .body (some (.ofList (oneWord.invertedList .body "cat")))
  have opened : wordTwice.listOn oneWord = (Cursor.materialize .body .syn [word, word]).1 := rfl
  have sorted : [0, 0].mergeSort (fun left right : Nat => decide (left ≤ right)) = [0, 0] :=
    List.mergeSort_of_pairwise (by decide)
  simp only [opened, word, invertedList_oneWord.1]
  calc
    _ = InvertedList.ofPostings .body [.ofPositions 0 ([0, 0].mergeSort (· ≤ ·))] := rfl
    _ = _ := by
      rw [sorted]
      rfl

theorem documentsOn_wordTwice : wordTwice.score.documentsOn oneWord true = {0} := by
  have twice : wordTwice.documentsOn oneWord true = {0} := by
    rw [documentsOn_of_isList _ _ rfl, listOn_wordTwice]
    rfl
  simp [Query.score, twice, ScoringOperator.matching, Matching.documents]

theorem search_wordTwice : (Engine.ofOneWord parameters).search "#syn(cat cat)" =
    .ok [⟨0, combine .and [1]
      [parameters.probability (Arithmetic.ofNat 2) (Arithmetic.ofNat 1) 2 1]⟩] := by
  have present : 0 ∈ wordTwice.score.documentsOn oneWord true := by simp [documentsOn_wordTwice]
  have scored : wordTwice.score.scoreAt oneWord (.indri parameters) 0 =
      .ok (parameters.probability (Arithmetic.ofNat 2) (Arithmetic.ofNat 1) 2 1) := by
    change smoothedAt oneWord parameters 0 ((wordTwice.listOn oneWord).frequencyAt 0) _ = _
    rw [smoothedAt_oneWord, listOn_wordTwice]
    rfl
  rw [Engine.search_eq_evaluate (plan_wordTwice parameters),
    Engine.evaluate_eq_scan (Index.ofDocuments_ascending _ _) (by simp [Query.operands])]
  refine scan_eq_singleton ?_ ?_
  · change documentsOn oneWord true (.apply (.scoring .and) [wordTwice.score] [1]) = {0}
    simp [documentsOn_wordTwice, ScoringOperator.matching, Matching.documents]
  · change (presentOrDefaultAt oneWord (.indri parameters) 0 (scoresAt oneWord (.indri parameters) 0
      [wordTwice.score])).map (combine .and [1]) = _
    rw [presentOrDefaultAt_oneWord, List.mapM_cons, if_pos present, scored]
    rfl

end Query

namespace Engine

/-- Without smoothing, a word that does not occur makes the score zero, and so does with the usual
parameters a word in a field without tokens; a union of a word with itself counts each occurrence twice,
so that its score is two. -/
theorem search_notMem_Ioc :
    (Indri.unsmoothed.validate = .ok () ∧ ∃ score,
        (ofOneWord .unsmoothed).search "cat dog" = .ok [⟨0, score⟩] ∧ value score = 0) ∧
      Indri.usualExactly.validate = .ok () ∧
        (∃ score, (ofOneWord .usualExactly).search "cat dog.title" = .ok [⟨0, score⟩] ∧
          value score = 0) ∧
        ∃ score, (ofOneWord .usualExactly).search "#syn(cat cat)" = .ok [⟨0, score⟩] ∧
          value score = 2 := by
  refine ⟨⟨Indri.validate_unsmoothed, _, Query.search_twoWords _ (Query.plan_cat_dog _), ?_⟩,
    Indri.validate_usualExactly, ⟨_, Query.search_twoWords _ (Query.plan_cat_dogTitle _), ?_⟩,
    _, Query.search_wordTwice _, ?_⟩
  · have length : oneWord.lengthAt .body 0 = 1 := rfl
    have default : value (Indri.unsmoothed.probability (Arithmetic.ofNat 0)
        (Arithmetic.ofNat (oneWord.lengthAt .body 0)) 0 (oneWord.tokenCount .body)) = 0 := by
      simp [Indri.unsmoothed, Indri.probability, value_add, value_mul, value_sub, value_ofNat, lt_iff,
        length]
    simp [combine, value_product, default, value_ofNat]
  · have tokens : oneWord.tokenCount .title = 0 := rfl
    have length : oneWord.lengthAt .title 0 = 0 := rfl
    have default : value (Indri.usualExactly.probability (Arithmetic.ofNat 0)
        (Arithmetic.ofNat (oneWord.lengthAt .title 0)) 0 (oneWord.tokenCount .title)) = 0 := by
      simp [Indri.usualExactly, Indri.probability, Indri.collectionShare, value_add, value_mul,
        value_sub, value_ofNat, lt_iff, length, tokens]
    simp [combine, value_product, default, value_ofNat]
  · have mass : (0 : RealNumber) < Arithmetic.ofNat 1 + ⟨2500⟩ := by
      rw [lt_iff, value_add, value_ofNat, value_zero, RealNumber.value_mk]
      norm_num
    simp [Indri.usualExactly, combine, value_product, Indri.probability, Indri.collectionShare,
      value_add, value_mul, value_sub, value_ofNat, mass]
    norm_num

theorem search_mem_Ioc_twoWords :
    ∃ ranking, (ofOneWord .usualExactly).search "cat dog" = .ok ranking ∧
      ∀ scored ∈ ranking, value scored.score ∈ Set.Ioc 0 1 := by
  have smooths : 0 < Indri.usualExactly.mu := by
    rw [lt_iff, value_zero, Indri.usualExactly, RealNumber.value_mk]
    norm_num
  refine search_mem_Ioc _ _ _ Indri.validate_usualExactly (.inr smooths) (Query.plan_cat_dog _) ?_ ?_
  · rintro query ⟨⟩
    simp [Query.twoWords, Query.score, Query.scoringOperators, Query.scoringOperatorsOfEach]
  · rintro query ⟨⟩
    have scored : ∀ list ∈ (Query.twoWords .body).scoredLists,
        list.field = .body ∧ list.hasUnion = false := by
      simp [Query.twoWords, Query.score, Query.scoredLists, Query.scoredListsOfEach, Query.field,
        Query.hasUnion]
    exact ⟨fun list member => (scored list member).1 ▸ Nat.one_pos,
      fun list member union => absurd union (by simp [(scored list member).2])⟩

end Engine

end Retrieval
