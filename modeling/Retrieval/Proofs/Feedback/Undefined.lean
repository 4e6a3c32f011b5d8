import Retrieval.Proofs.Feedback.Weights

/-!
# Weights that are undefined

Without smoothing, the share of a term in an empty body is a quotient of zeros. Whatever double precision
computes with it is undefined, so one empty body among the relevant documents makes the weights of all added
terms undefined. They are written as no number, and the expanded query is refused.
-/

namespace Retrieval

namespace Number

open Float.Model Float.Model.UnpackedFloat

/-! ## The undefined number -/

theorem nan_add (number : Float) : Float.nan + number = Float.nan := rfl

theorem add_nan (number : Float) : number + Float.nan = Float.nan := by
  change Float.ofModel (Float.Model.pack (UnpackedFloat.add .binary64 number.toModel.unpack
    .notANumber)) = _
  cases number.toModel.unpack <;> rfl

theorem mul_nan (number : Float) : number * Float.nan = Float.nan := by
  change Float.ofModel (Float.Model.pack (UnpackedFloat.mul .binary64 number.toModel.unpack
    .notANumber)) = _
  cases number.toModel.unpack <;> rfl

theorem div_nan (number : Float) : number / Float.nan = Float.nan := by
  change Float.ofModel (Float.Model.pack (UnpackedFloat.div .binary64 number.toModel.unpack
    .notANumber)) = _
  cases number.toModel.unpack <;> rfl

/-- One undefined number makes a sum undefined. -/
theorem sum_eq_nan {numbers : List Float} (member : Float.nan ∈ numbers) :
    Arithmetic.sum numbers = Float.nan := by
  have stays : ∀ numbers : List Float, numbers.foldl (· + ·) Float.nan = Float.nan := by
    intro numbers
    induction numbers with
    | nil => rfl
    | cons number later induction => rw [List.foldl_cons, nan_add, induction]
  have reaches : ∀ first : Float, numbers.foldl (· + ·) first = Float.nan := by
    induction numbers with
    | nil => exact absurd member List.not_mem_nil
    | cons number later induction =>
        intro first
        rw [List.foldl_cons]
        rcases List.mem_cons.mp member with rfl | beyond
        · rw [add_nan, stays]
        · exact induction beyond _
  exact reaches 0

/-- The values that are neither positive nor negative. -/
inductive IsUnsigned : UnpackedFloat → Prop
  /-- Zero with either sign. -/
  | zero (sign : Sign) : IsUnsigned (.zero sign)
  /-- No number. -/
  | undefined : IsUnsigned .notANumber

theorem isUnsigned_unpack {number : Float} (notPositive : ¬ 0 < number) (notNegative : ¬ number < 0) :
    IsUnsigned number.toModel.unpack := by
  rw [lt_iff] at notPositive notNegative
  change ¬ UnpackedFloat.lt (.zero .positive) _ = true at notPositive
  change ¬ UnpackedFloat.lt _ (.zero .positive) = true at notNegative
  generalize number.toModel.unpack = value at notPositive notNegative ⊢
  cases value with
  | infinity sign => cases sign <;> contradiction
  | notANumber => exact .undefined
  | zero sign => exact .zero sign
  | finite sign => cases sign <;> contradiction

/-- A mass that is zero, or no number, leaves a quotient of zeros. -/
theorem share_eq_nan {mass : Float} (unsigned : IsUnsigned mass.toModel.unpack) (share : Float) :
    (Float.ofNat 0 + mass * share) / (Float.ofNat 0 + mass) = Float.nan := by
  cases unpacked : mass.toModel.unpack with
  | infinity => rw [unpacked] at unsigned; cases unsigned
  | finite => rw [unpacked] at unsigned; cases unsigned
  | notANumber =>
      have total : Float.ofNat 0 + mass = Float.nan := by
        change Float.ofModel (Float.Model.pack (UnpackedFloat.add .binary64 (.zero .positive)
          mass.toModel.unpack)) = _
        rw [unpacked]
        rfl
      rw [total, div_nan]
  | zero sign =>
      change Float.ofModel (Float.Model.pack (UnpackedFloat.div .binary64
        (Float.Model.pack (UnpackedFloat.add .binary64 (.zero .positive) (Float.Model.pack
          (UnpackedFloat.mul .binary64 mass.toModel.unpack share.toModel.unpack)).unpack)).unpack
        (Float.Model.pack (UnpackedFloat.add .binary64 (.zero .positive)
          mass.toModel.unpack)).unpack)) = _
      have product : IsUnsigned (UnpackedFloat.mul .binary64 (.zero sign) share.toModel.unpack) := by
        cases share.toModel.unpack with
        | infinity | notANumber => exact .undefined
        | zero | finite => exact .zero _
      rw [unpacked]
      generalize UnpackedFloat.mul .binary64 (.zero sign) share.toModel.unpack = value at product ⊢
      cases product with
      | undefined => cases sign <;> rfl
      | zero other => cases sign <;> cases other <;> rfl

end Number

/-! ## Undefined weights -/

namespace Feedback

variable {feedback : Feedback Float} {index : Index} {ranking : Ranking Float}
  {relevant : List (RelevantDocument Float)} {terms : List (ExpansionTerm Float)}

/-- One relevant document without a body makes the score of each term undefined. -/
theorem termScore_eq_nan (valid : feedback.validate = .ok ()) (unsmoothed : ¬ 0 < feedback.mu)
    (found : feedback.relevant index ranking = .ok relevant)
    (empty : ∃ scored ∈ ranking.take feedback.documents,
      index.fieldLength .body scored.document = .ok 0) {term : String}
    (occurs : (index.invertedList .body term).collectionFrequency ≠ 0) :
    feedback.termScore index relevant term = Float.nan := by
  obtain ⟨-, nonneg, -⟩ := validate_eq_ok_iff.mp valid
  have unsigned := Number.isUnsigned_unpack unsmoothed nonneg
  obtain ⟨scored, inside, none⟩ := empty
  cases isVector : index.termVector .body scored.document with
  | error cause =>
      cases read : index.document scored.document <;>
        simp [Index.termVector, Index.fieldLength, read, Except.map] at isVector none
  | ok vector =>
      obtain ⟨original, read, length, -⟩ := Index.exists_of_termVector isVector
      rw [Index.fieldLength, read] at none
      have noTokens : (original.fields.get .body).length = 0 := Except.ok.inj none
      have among : RelevantDocument.ofVector scored.score vector ∈ relevant :=
        (mem_relevant_iff found).mpr ⟨scored, inside, vector, isVector, rfl⟩
      rw [termScore, if_neg occurs]
      refine Number.sum_eq_nan (List.mem_map.mpr ⟨_, among, ?_⟩)
      have frequency : (RelevantDocument.ofVector scored.score vector).counts.getD term 0 = 0 := by
        rw [RelevantDocument.getD_counts isVector read, List.length_eq_zero_iff.mp noTokens,
          List.count_nil]
      have bodyless : (RelevantDocument.ofVector scored.score vector).length = 0 :=
        length.trans noTokens
      rw [contribution, frequency, bodyless]
      exact (congrArg _ (Number.share_eq_nan unsigned _)).trans (Number.mul_nan _)

theorem weight_eq_nan {documents : List Document} {stopwords : List String}
    (valid : feedback.validate = .ok ()) (unsmoothed : ¬ 0 < feedback.mu)
    (empty : ∃ scored ∈ ranking.take feedback.documents,
      (Index.ofDocuments documents stopwords).fieldLength .body scored.document = .ok 0)
    (expanded : feedback.expansionTerms (.ofDocuments documents stopwords) ranking = .ok terms)
    {term : ExpansionTerm Float} (member : term ∈ terms) : term.weight = Float.nan := by
  obtain ⟨relevant, found, ⟨document, inside, isTerm⟩, weight⟩ :=
    exists_of_mem_expansionTerms expanded member
  obtain ⟨scored, -, vector, isVector, rfl⟩ := (mem_relevant_iff found).mp inside
  obtain ⟨original, read, -, stems⟩ := Index.exists_of_termVector isVector
  rw [RelevantDocument.ofVector, stems, mem_firstOccurrences] at isTerm
  have among : original ∈ documents := Index.mem_of_document read
  have occurs : ((Index.ofDocuments documents stopwords).invertedList .body
      term.term).collectionFrequency ≠ 0 := by
    change ((ListTable.ofDocuments documents).find .body term.term).collectionFrequency ≠ 0
    rw [ListTable.collectionFrequency_ofDocuments, ne_eq, List.sum_eq_zero_iff]
    intro none
    have never := none _ (List.mem_map_of_mem among)
    exact absurd isTerm (List.count_eq_zero.mp never)
  rw [weight, termScore_eq_nan valid unsmoothed found empty occurs]
  rfl

end Feedback

/-! ## Reading up to a weight -/

namespace Query

variable {ω : Type} [Arithmetic ω] {analyzer : Analyzer}

/-- The first weight of the added terms stands behind the query and the weights of both. -/
theorem scan_expandedQuery_cons (text : String) {queryWeight : ω} {term : ExpansionTerm ω}
    (terms : List (ExpansionTerm ω)) (first : Token.IsWord (Arithmetic.write queryWeight))
    (second : Token.IsWord (Arithmetic.write (roundToFourPlaces (1 - queryWeight))))
    (isWord : Token.IsWord (Arithmetic.write term.weight)) :
    ∃ later, Token.scan (expandedQuery text (expansionQuery (term :: terms)) queryWeight) =
      .word "#wand" :: ((.word (Arithmetic.write queryWeight) ::
        (.word "#and" :: Token.scan text ++ [.close])) ++
          (.word (Arithmetic.write (roundToFourPlaces (1 - queryWeight))) :: .word "#wand" ::
            .word (Arithmetic.write term.weight) :: later)) := by
  have label : "#wand(" = "#wand" ++ "(" := by decide
  rw [scan_expandedQuery text _ first second, expansionQuery, label, Token.scan_call (by decide),
    Token.scan_intercalate, List.map_cons, List.flatMap_cons, Token.scan_spaced,
    Token.scan_word isWord]
  simp only [List.cons_append, List.append_assoc, List.nil_append]
  exact ⟨_, rfl⟩

theorem readWeight_eq_error {word : String} (unread : ∀ weight : ω, ¬ IsWeight word weight) :
    (readWeight word : Except QueryError ω) = .error (.expectedWeight word) := by
  cases read : (readWeight word : Except QueryError ω) with
  | ok weight => exact absurd (readWeight_eq_ok_iff.mp read) (unread weight)
  | error cause =>
      rw [readWeight] at read
      split at read
      · split at read
        · simp at read
        · exact read.symm
      · exact read.symm

/-- Reading stops at a weight that cannot be read. -/
theorem foldlM_readToken_of_unread {text word : String} {frame : OpenOperator ω}
    {outer : List (OpenOperator ω)} (expects : frame.expectsWeight = true)
    (unread : ∀ weight : ω, ¬ IsWeight word weight) (later : List Token) :
    (Token.word word :: later).foldlM (readToken analyzer text) (.inside (frame :: outer)) =
      .error (.expectedWeight word) := by
  rw [List.foldlM_cons, readToken_weight expects, readWeight_eq_error unread]
  rfl

/-- Reading an expanded query stops at its first added weight if that cannot be read. -/
theorem foldlM_readToken_expandedQuery {text whole : String} {items : List (ω × Query ω)}
    (derives : Items analyzer (.scoring .and) (Token.scan text) items) {queryWeight : ω}
    {term : ExpansionTerm ω} (terms : List (ExpansionTerm ω)) (first : IsWritten queryWeight)
    (second : IsWritten (roundToFourPlaces (1 - queryWeight)))
    (isWord : Token.IsWord (Arithmetic.write term.weight))
    (unread : ∀ weight : ω, ¬ IsWeight (Arithmetic.write term.weight) weight) :
    (Token.scan (expandedQuery text (expansionQuery (term :: terms)) queryWeight) ++
        [Token.close]).foldlM (readToken analyzer whole)
          (.inside ([.start (.scoring .and)] : List (OpenOperator ω))) =
      .error (.expectedWeight (Arithmetic.write term.weight)) := by
  have andNamed : Operator.IsNamed "#and" (.scoring .and) := rfl
  have wandNamed : Operator.ofWord "#wand" = .ok (.scoring .wand) := Operator.ofWord_eq_ok_iff.mpr rfl
  have sign : "#wand".toList.head? = some '#' := by decide
  have original := Items.weighted rfl first.isWeight
    (@Operand.apply ω _ _ (.scoring .wand) _ _ _ _ andNamed (by decide) derives) .nil
  rw [List.append_nil] at original
  obtain ⟨later, scanned⟩ := scan_expandedQuery_cons text terms first.readsBack.1 second.readsBack.1
    isWord
  -- The query derives, so it is read to its own parenthesis before the weight is reached.
  rw [scanned, List.cons_append, List.append_assoc, List.foldlM_cons, readToken_operator rfl sign,
    wandNamed]
  refine (original.read (.start (.scoring .wand)) _ _ rfl rfl).trans ?_
  rw [List.cons_append, List.foldlM_cons, readToken_weight rfl,
    readWeight_eq_ok_iff.mpr second.isWeight]
  change List.foldlM _ _ _ = _
  rw [List.cons_append, List.foldlM_cons, readToken_operator rfl sign, wandNamed]
  exact foldlM_readToken_of_unread rfl unread _

end Query

namespace Engine

theorem parse_expandedQuery_of_unread {ω : Type} [Arithmetic ω] {engine : Engine ω}
    (operator : engine.model.defaultOperator = .scoring .and) {text : String} {query : Query ω}
    (parsed : engine.parse text = .ok query) {term : ExpansionTerm ω} {terms : List (ExpansionTerm ω)}
    {queryWeight : ω} (first : Query.IsWritten queryWeight)
    (second : Query.IsWritten (roundToFourPlaces (1 - queryWeight)))
    (isWord : Token.IsWord (Arithmetic.write term.weight))
    (unread : ∀ weight : ω, ¬ Query.IsWeight (Arithmetic.write term.weight) weight) :
    engine.parse (expandedQuery text (expansionQuery (term :: terms)) queryWeight) =
      .error (.expectedWeight (Arithmetic.write term.weight)) := by
  have named := Operator.isNamed_label_defaultOperator engine.model
  obtain ⟨items, derives, -⟩ := (Query.parse_eq_ok_iff_of_isNamed named).mp parsed
  rw [operator] at derives
  have isLabel : Operator.ofWord (Operator.scoring .and).label = .ok (.scoring .and) :=
    Operator.ofWord_eq_ok_iff.mpr rfl
  rw [parse, Query.parse, operator, Query.ofText, Query.wrap,
    Token.scan_call (Operator.isWord_label _), List.cons_append, List.foldlM_cons,
    Query.readToken_begin, if_pos (by decide), isLabel]
  change (List.foldlM _ _ _ >>= _) = _
  dsimp only
  rw [Query.foldlM_readToken_expandedQuery derives terms first second isWord unread]
  rfl

/-- Without smoothing, a relevant document with an empty body makes all weights undefined, and the run is
refused for the text of the expanded query, if the other weights are read as they are printed. -/
theorem searchWithFeedback_undefined (documents : List Document) (stopwords : List String)
    (parameters : Indri Float) (analyzer : Analyzer) {feedback : Feedback Float}
    (valid : feedback.validate = .ok ()) (unsmoothed : ¬ 0 < feedback.mu)
    (printed : ∀ weight ∈ [feedback.queryWeight, roundToFourPlaces (1 - feedback.queryWeight)],
      Number.readFloat? (Number.writeFloat weight) = some weight) {text : String}
    {query : Query Float} {first : Option (Ranking Float)} {ranking : Ranking Float}
    {terms : List (ExpansionTerm Float)} :
    let engine : Engine Float := ⟨.ofDocuments documents stopwords, .indri parameters, analyzer⟩
    engine.parse text = .ok query → engine.firstRanking text first = .ok ranking →
      (∃ scored ∈ ranking.take feedback.documents,
        engine.index.fieldLength .body scored.document = .ok 0) →
      feedback.expansionTerms engine.index ranking = .ok terms → terms ≠ [] →
        (∀ term ∈ terms, term.weight.isNaN = true) ∧
          engine.searchWithFeedback feedback text first = .error (.query (.expectedWeight "NaN")) := by
  intro engine parsed isFirst empty expanded added
  have undefined : ∀ term ∈ terms, term.weight = Float.nan := fun term member =>
    Feedback.weight_eq_nan valid unsmoothed empty expanded member
  obtain ⟨term, later, rfl⟩ := List.exists_cons_of_ne_nil added
  obtain ⟨-, -, fraction⟩ := Feedback.validate_eq_ok_iff.mp valid
  obtain ⟨printedQuery, printedRest⟩ := by simpa only [List.forall_mem_cons] using printed
  have isText : Arithmetic.write term.weight = "NaN" := by
    rw [undefined term List.mem_cons_self]
    rfl
  have unread : ∀ weight : Float, ¬ Query.IsWeight "NaN" weight := by
    rintro weight ⟨read, finite, -⟩
    obtain rfl := Option.some.inj read
    exact absurd finite (by decide)
  have refused : engine.parse (expandedQuery text (expansionQuery (term :: later))
      feedback.queryWeight) = .error (.expectedWeight (Arithmetic.write term.weight)) :=
    parse_expandedQuery_of_unread rfl parsed
      (Query.isWritten_of_printed printedQuery (Number.finite_nonneg_of_isFraction fraction))
      (Query.isWritten_of_printed printedRest.1 (Number.roundToFourPlaces_one_sub fraction))
      (Number.isWord_writeFloat _) (isText ▸ unread)
  rw [isText] at refused
  refine ⟨fun term member => undefined term member ▸ rfl, ?_⟩
  rw [searchWithFeedback_eq, isFirst]
  simp only [bind, Except.bind, expanded]
  rw [search, plan, refused]
  rfl

end Engine

/-! ## The empty body of a collection -/

theorem invertedList_halfEmpty :
    (Index.ofDocuments halfEmpty []).invertedList .title "apple" =
      ⟨.title, 2, 2, [⟨0, 1, [0]⟩, ⟨1, 1, [0]⟩]⟩ := by
  simp [Index.invertedList, halfEmpty, Index.ofDocuments, ListTable.ofDocuments,
    ListTable.enterDocument, Field.all, FieldTable.get, ListTable.enterTokens, ListTable.find,
    InvertedList.enter, InvertedList.empty, InvertedList.cons, Posting.ofPositions,
    Std.HashMap.getD_insert]

section AppleTitle

variable {ω : Type} [Arithmetic ω]

theorem Query.documentsOn_apple :
    documentsOn (.ofDocuments halfEmpty []) true (term "apple" .title : Query ω) = {0, 1} := by
  rw [documentsOn_of_isList _ _ rfl, listOn_term, invertedList_halfEmpty]
  rfl

theorem Query.documentsOn_appleTitle :
    (appleTitle : Query ω).documentsOn (.ofDocuments halfEmpty []) true = {0, 1} := by
  simp [appleTitle, Query.score, documentsOn_apple, ScoringOperator.matching, Matching.documents]

theorem Query.exists_scoreAt_appleTitle (parameters : Indri ω) {document : DocumentId}
    (titled : document = 0 ∨ document = 1) : ∃ score, (appleTitle : Query ω).scoreAt
      (.ofDocuments halfEmpty []) (.indri parameters) document = .ok score := by
  obtain ⟨score, scored⟩ : ∃ score, scoreAt (.ofDocuments halfEmpty []) (.indri parameters) document
      (term "apple" .title : Query ω).score = .ok score := by
    rcases titled with rfl | rfl <;> exact ⟨_, rfl⟩
  have present : document ∈ documentsOn (.ofDocuments halfEmpty []) true
      (term "apple" .title : Query ω).score := by
    simpa [Query.score, documentsOn_apple, ScoringOperator.matching, Matching.documents] using titled
  refine ⟨combine .and [1] [score], ?_⟩
  change (presentOrDefaultAt _ (.indri parameters) document (scoresAt _ (.indri parameters) document
    [(term "apple" .title).score])).map (combine .and [1]) = _
  rw [presentOrDefaultAt, scoresAt_eq_map, List.map_cons, List.map_nil, List.mapM_cons,
    List.mapM_nil]
  dsimp only
  rw [if_pos (by exact present), scored]
  rfl

/-- The documents with the title are found, whatever their scores are. -/
theorem Engine.exists_search_appleTitle (parameters : Indri ω) :
    ∃ first second, (⟨.ofDocuments halfEmpty [], .indri parameters, .ofStopwords []⟩ :
      Engine ω).search "apple.title" = .ok (Ranking.sort [⟨0, first⟩, ⟨1, second⟩]) := by
  have planned : (⟨.ofDocuments halfEmpty [], .indri parameters, .ofStopwords []⟩ :
      Engine ω).plan "apple.title" = .ok (some .appleTitle) := by
    rw [plan, parse_appleTitle]
    rfl
  have documents : Query.documentsOn (.ofDocuments halfEmpty []) (Model.indri parameters).isSoft
      (.appleTitle : Query ω) = {0, 1} := Query.documentsOn_appleTitle
  have sorted : ({0, 1} : Finset DocumentId).sort (· ≤ ·) = [0, 1] := by
    rw [Finset.sort_insert _ (by simp) (by simp), Finset.sort_singleton]
  obtain ⟨first, isFirst⟩ := Query.exists_scoreAt_appleTitle parameters (.inl rfl)
  obtain ⟨second, isSecond⟩ := Query.exists_scoreAt_appleTitle parameters (.inr rfl)
  refine ⟨first, second, ?_⟩
  rw [search_eq_evaluate planned, evaluate_eq_scan (Index.ofDocuments_ascending _ _)
    (by simp [Query.appleTitle, Query.operands]), Query.scan, documents, sorted, List.mapM_cons,
    List.mapM_cons, Query.scoredAt, isFirst, Query.scoredAt, isSecond]
  rfl

end AppleTitle

/-- The two documents with the title are relevant, and nothing smooths their terms. -/
def Feedback.unsmoothed : Feedback Float := ⟨2, 5, 0, 0.5, none, none⟩

/-- A query that has been read, with its own ranking and settings that are accepted, becomes one that cannot
be read. -/
theorem Engine.searchWithFeedback_halfEmpty :
    let engine : Engine Float := ⟨.ofDocuments halfEmpty [], .indri .usual, .ofStopwords []⟩
    (∀ document ∈ halfEmpty, ∀ field, ∀ token ∈ document.fields.get field,
      ∃ text, token ∈ engine.analyzer.analyze text) ∧
      Feedback.unsmoothed.validate = .ok () ∧ engine.parse "apple.title" = .ok .appleTitle ∧
      (∃ ranking terms, engine.search "apple.title" = .ok ranking ∧
        Feedback.unsmoothed.expansionTerms engine.index ranking = .ok terms ∧
          ∃ term ∈ terms, term.weight.isNaN = true) ∧
      engine.searchWithFeedback .unsmoothed "apple.title" none =
        .error (.query (.expectedWeight "NaN")) := by
  intro engine
  have valid : Feedback.unsmoothed.validate = .ok () := by decide
  have parsed : engine.parse "apple.title" = .ok .appleTitle := parse_appleTitle _ _
  obtain ⟨first, second, searched⟩ := exists_search_appleTitle Indri.usual
  have sorted := Ranking.sort_perm [(⟨0, first⟩ : Scored Float), ⟨1, second⟩]
  generalize Ranking.sort [(⟨0, first⟩ : Scored Float), ⟨1, second⟩] = ranking at searched sorted
  have isFirst : engine.firstRanking "apple.title" none = .ok ranking := searched
  have both : ranking.length ≤ 2 := Nat.le_of_eq sorted.length_eq
  have ranked : (ranking.take 2).Perm [⟨0, first⟩, ⟨1, second⟩] := by
    rwa [List.take_of_length_le both]
  obtain ⟨terms, expanded, added⟩ : ∃ terms,
      Feedback.unsmoothed.expansionTerms engine.index ranking = .ok terms ∧ terms ≠ [] :=
    Feedback.exists_expansionTerms_halfEmpty (by decide) ranked
  have empty : ∃ scored ∈ ranking.take 2,
      engine.index.fieldLength .body scored.document = .ok 0 :=
    ⟨⟨0, first⟩, ranked.mem_iff.mpr (by simp), rfl⟩
  obtain ⟨undefined, refused⟩ := searchWithFeedback_undefined halfEmpty [] .usual (.ofStopwords [])
    valid (by decide) (by decide +kernel) parsed isFirst empty expanded added
  obtain ⟨term, member⟩ := List.exists_mem_of_ne_nil _ added
  refine ⟨fun document inside field token among => ⟨token, ?_⟩, valid, parsed,
    ⟨ranking, terms, searched, expanded, term, member, undefined term member⟩, refused⟩
  exact mem_analyze_of_mem_halfEmpty inside field among

end Retrieval
