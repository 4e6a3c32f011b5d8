import Retrieval.Proofs.Evaluation.Failures
import Retrieval.Proofs.Feedback.AddedTerms
import Retrieval.Proofs.Number.Sums
import Retrieval.Proofs.Posting.Lengths
import Retrieval.Proofs.Query.Expansion

/-!
# Weights of added terms

In double precision the weight of an added term is finite and not negative if the scores of the first
ranking are, if no number is too large, and if the smoothing or the body of each relevant document has
any mass; the expanded query can then be read. A document with an empty body and no smoothing leaves a
quotient of zeros, which makes every weight undefined.
-/

namespace Retrieval

/-- What is required of a logarithm: that of a count divided by one of its parts is neither negative
nor large. -/
structure Number.IsLogarithm (log : Float → Float) : Prop where
  /-- It is not negative. -/
  nonneg : ∀ {part whole : Nat}, 0 < part → part ≤ whole → whole < 2 ^ 53 →
    Float.ofNat 0 ≤ log (Float.ofNat whole / Float.ofNat part)
  /-- It is not large. -/
  le : ∀ {part whole : Nat}, 0 < part → part ≤ whole → whole < 2 ^ 53 →
    log (Float.ofNat whole / Float.ofNat part) ≤ Float.ofNat 64

variable {log : Float → Float}

/-! ## Relevant documents -/

open Number in
/-- The document can be weighed: its score is not large, it or the smoothing has mass, and its terms
are spelled as analysis spells them. -/
structure RelevantDocument.Weighable (mu : FloatWith log)
    (document : RelevantDocument (FloatWith log)) : Prop where
  /-- Its score is not large. -/
  score : Mild 280 document.score
  /-- It is not long. -/
  short : document.length < 2 ^ 53
  /-- A term does not occur more often than the document is long. -/
  among : ∀ term, document.counts.getD term 0 ≤ document.length
  /-- No share of it is a quotient of zeros. -/
  mass : 0 < mu ∨ document.length ≠ 0
  /-- Its terms are spelled like terms. -/
  terms : ∀ term ∈ document.terms, Analyzer.IsTerm term

namespace Feedback

open Number

variable {feedback : Feedback (FloatWith log)} {index : Index} {ranking : Ranking (FloatWith log)}
  {relevant : List (RelevantDocument (FloatWith log))}

theorem validate_eq_ok_iff {ω : Type} [Arithmetic ω] {feedback : Feedback ω} :
    feedback.validate = .ok () ↔ (feedback.documents ≠ 0 ∧ feedback.terms ≠ 0) ∧
      ¬ feedback.mu < 0 ∧ Arithmetic.isFraction feedback.queryWeight = true := by
  rw [validate]
  split
  · next empty =>
      rcases (by simpa using empty : feedback.documents = 0 ∨ feedback.terms = 0) with none | none <;>
        simp [none]
  · next nonempty =>
      split
      · next negative => simp [negative]
      · next nonneg =>
          cases Arithmetic.isFraction feedback.queryWeight <;> simp_all

/-- What a document adds to the weight of a term is not large. -/
theorem mild_contribution (isLogarithm : IsLogarithm log)
    {document : RelevantDocument (FloatWith log)} {tokens collectionFrequency : Nat}
    (mu : Mild 280 feedback.mu) (weighable : document.Weighable feedback.mu)
    (occurs : collectionFrequency ≠ 0) (atMost : collectionFrequency ≤ tokens)
    (few : tokens < 2 ^ 53) (term : String) :
    Mild 504 (feedback.contribution (Arithmetic.ofNat tokens)
      (Arithmetic.ofNat collectionFrequency) term document) := by
  have some : 0 < collectionFrequency := Nat.pos_of_ne_zero occurs
  have share := modest_share (atMost.trans_lt few) (some.trans_le atMost) few
  have probability := modest_smoothed (weighable.among term) weighable.short mu share weighable.mass
  have rarity : Mild 3 (log (Float.ofNat tokens / Float.ofNat collectionFrequency)) :=
    mild_of_le (not_lt_zero_of_le (isLogarithm.nonneg some atMost few))
      (isLogarithm.le some atMost few) (modest_ofNat (by omega))
  have product := weighable.score.mul rarity (le_refl (280 + 3 + 54)) (by omega) (by omega)
  exact product.mul probability.mild (by omega) (by omega) (by omega)

theorem modest_termScore (isLogarithm : IsLogarithm log) (consistent : index.Consistent)
    (few : index.tokenCount .body < 2 ^ 53) (mu : Mild 280 feedback.mu)
    (weighable : ∀ document ∈ relevant, document.Weighable feedback.mu) (term : String) :
    Modest 559 (feedback.termScore index relevant term) := by
  have atMost : (index.invertedList .body term).collectionFrequency ≤ index.tokenCount .body := by
    rw [consistent.tokenCount_eq]
    exact (consistent.wellFormed .body term).collectionFrequency_le (consistent.fits .body term)
  rw [termScore]
  split
  · exact (modest_ofNat (by omega : 0 < 2 ^ 53)).weaken (by omega)
  · next occurs =>
      have each : ∀ number ∈ relevant.map (feedback.contribution
          (Arithmetic.ofNat (index.tokenCount .body))
          (Arithmetic.ofNat (index.invertedList .body term).collectionFrequency) term),
          Mild 504 number := by
        intro number member
        obtain ⟨document, inside, rfl⟩ := List.mem_map.mp member
        exact mild_contribution isLogarithm mu (weighable document inside) occurs atMost few term
      exact Modest.sum each (by omega) (by omega) (by omega)

/-- A first ranking from which terms can be weighed: no number is negative or too large, and there is
smoothing, or none of the bodies of the relevant documents is empty. -/
structure Usable (feedback : Feedback (FloatWith log)) (index : Index)
    (ranking : Ranking (FloatWith log)) : Prop where
  /-- The scores are neither negative nor too large. -/
  scores : ∀ scored ∈ ranking.take feedback.documents,
    0 ≤ scored.score ∧ scored.score ≤ Arithmetic.ofNat (10 ^ 100)
  /-- The smoothing is not too large. -/
  smoothing : feedback.mu ≤ Arithmetic.ofNat (10 ^ 100)
  /-- The tokens can be counted. -/
  few : index.tokenCount .body < 2 ^ 53
  /-- No share of a document is a quotient of zeros. -/
  mass : 0 < feedback.mu ∨ ∀ scored ∈ ranking.take feedback.documents,
    index.fieldLength .body scored.document ≠ .ok 0

/-- The documents that count as relevant can be weighed, if the first ranking and its documents
allow it. -/
theorem weighable_of_relevant {documents : List Document} {stopwords : List String}
    {analyzer : Analyzer}
    (analyzed : ∀ document ∈ documents, ∀ token ∈ document.fields.get .body,
      ∃ text, token ∈ analyzer.analyze text)
    (usable : feedback.Usable (.ofDocuments documents stopwords) ranking)
    (found : feedback.relevant (.ofDocuments documents stopwords) ranking = .ok relevant) :
    ∀ document ∈ relevant, document.Weighable feedback.mu := by
  intro document member
  obtain ⟨scored, inside, vector, isVector, rfl⟩ := (mem_relevant_iff found).mp member
  obtain ⟨original, read, length, stems⟩ := Index.exists_of_termVector isVector
  have among : original ∈ documents := Index.mem_of_document read
  have atMost := Index.length_le_tokenCount among stopwords .body
  obtain ⟨nonneg, le⟩ := usable.scores scored inside
  refine
    { score := mild_of_le (not_lt_zero_of_le nonneg) le modest_large
      short := length.trans_lt (atMost.trans_lt usable.few)
      among := fun term => ?_
      mass := usable.mass.imp_right fun nonempty none => ?_
      terms := fun term isTerm => ?_ }
  · rw [RelevantDocument.getD_counts isVector read]
    exact List.count_le_length.trans_eq length.symm
  · apply nonempty scored inside
    rw [Index.fieldLength, read]
    exact congrArg Except.ok (length.symm.trans none)
  · rw [RelevantDocument.ofVector, stems, mem_firstOccurrences] at isTerm
    obtain ⟨text, fromText⟩ := analyzed original among term isTerm
    exact Analyzer.isTerm_of_mem_analyze fromText

/-- Each added term is spelled like a term, and its weight is finite and not negative. -/
theorem of_mem_expansionTerms (isLogarithm : IsLogarithm log) {documents : List Document}
    {stopwords : List String} {analyzer : Analyzer}
    (analyzed : ∀ document ∈ documents, ∀ token ∈ document.fields.get .body,
      ∃ text, token ∈ analyzer.analyze text)
    (valid : feedback.validate = .ok ())
    (usable : feedback.Usable (.ofDocuments documents stopwords) ranking)
    {terms : List (ExpansionTerm (FloatWith log))}
    (found : feedback.expansionTerms (.ofDocuments documents stopwords) ranking = .ok terms) :
    ∀ term ∈ terms, Analyzer.IsTerm term.term ∧
      Arithmetic.isFinite term.weight = true ∧ 0 ≤ term.weight := by
  intro term member
  obtain ⟨relevant, read, ⟨document, inside, isTerm⟩, weight⟩ :=
    exists_of_mem_expansionTerms found member
  obtain ⟨-, notNegative, -⟩ := validate_eq_ok_iff.mp valid
  have mu : Mild 280 feedback.mu := mild_of_le notNegative usable.smoothing modest_large
  have weighable := weighable_of_relevant analyzed usable read
  have consistent := Index.ofDocuments_consistent documents stopwords
  have score := modest_termScore isLogarithm consistent usable.few mu weighable term.term
  have modest : Modest 619 (roundToFourPlaces (feedback.termScore _ relevant term.term)) :=
    modest_roundToFourPlaces score (by omega) (by omega)
  refine ⟨(weighable document inside).terms term.term isTerm, ?_⟩
  rw [weight]
  exact ⟨modest.isFinite, modest.nonneg⟩

end Feedback

/-! ## Runs with feedback -/

namespace Engine

/-- Where the added terms and all weights can be read, a run does not fail for the text of the expanded
query. -/
theorem searchWithFeedback_reads {ω : Type} [Arithmetic ω] {engine : Engine ω}
    {feedback : Feedback ω} {text : String} {query : Query ω} {first : Option (Ranking ω)}
    (wellFormed : engine.index.WellFormed) (operator : engine.model.defaultOperator = .scoring .and)
    (parsed : engine.parse text = .ok query)
    (written : ∀ ranking terms, engine.firstRanking text first = .ok ranking →
      feedback.expansionTerms engine.index ranking = .ok terms →
        (∀ term ∈ terms, Query.Addable term) ∧ Query.IsWritten feedback.queryWeight ∧
          Query.IsWritten (roundToFourPlaces (1 - feedback.queryWeight))) :
    FailsBy (fun cause => ∀ unread, cause ≠ .query unread)
      (engine.searchWithFeedback feedback text first) := by
  have scoring : ∀ cause, engine.model.Lacks cause → ∀ unread, cause ≠ .query unread := by
    rintro _ ⟨operator, rfl⟩ _
    simp
  refine searchWithFeedback_fails ?_ (fun _ _ _ _ _ => by simp) ?_
  · cases first with
    | some ranking => exact .ok _
    | none => exact (search_fails wellFormed parsed).mono scoring
  · intro ranking terms isFirst expanded
    obtain ⟨addable, isWeight, isRest⟩ := written ranking terms isFirst expanded
    have read := parse_expandedQuery_of_addable operator parsed addable isWeight isRest
    exact (search_fails wellFormed read).mono scoring

/-- Where the first ranking can be used, the weights of the added terms are finite and not negative,
and the run does not fail for the text of the expanded query, if the weights are read as they are
printed. -/
theorem searchWithFeedback_readable (isLogarithm : Number.IsLogarithm log) (documents : List Document)
    (stopwords : List String) (parameters : Indri (FloatWith log)) (analyzer : Analyzer)
    {tokenizer : Analyzer}
    (analyzed : ∀ document ∈ documents, ∀ field, ∀ token ∈ document.fields.get field,
      ∃ text, token ∈ tokenizer.analyze text)
    {feedback : Feedback (FloatWith log)} (valid : feedback.validate = .ok ()) {text : String}
    {query : Query (FloatWith log)} {first : Option (Ranking (FloatWith log))} :
    let engine : Engine (FloatWith log) :=
      ⟨.ofDocuments documents stopwords, .indri parameters, analyzer⟩
    engine.parse text = .ok query →
      (∀ ranking, engine.firstRanking text first = .ok ranking →
        feedback.Usable engine.index ranking) →
      (∀ ranking terms, engine.firstRanking text first = .ok ranking →
        feedback.expansionTerms engine.index ranking = .ok terms →
          ∀ weight ∈ feedback.queryWeight :: roundToFourPlaces (1 - feedback.queryWeight) ::
            terms.map (·.weight), Arithmetic.read? (Arithmetic.write weight) = some weight) →
      (∀ ranking terms, engine.firstRanking text first = .ok ranking →
        feedback.expansionTerms engine.index ranking = .ok terms →
          ∀ term ∈ terms, Arithmetic.isFinite term.weight = true ∧ 0 ≤ term.weight) ∧
        ∀ cause, engine.searchWithFeedback feedback text first ≠ .error (.query cause) := by
  intro engine parsed usable printed
  have found : ∀ ranking terms, engine.firstRanking text first = .ok ranking →
      feedback.expansionTerms engine.index ranking = .ok terms → ∀ term ∈ terms,
        Analyzer.IsTerm term.term ∧ Arithmetic.isFinite term.weight = true ∧ 0 ≤ term.weight :=
    fun ranking terms isFirst expanded => Feedback.of_mem_expansionTerms isLogarithm
      (fun document inside => analyzed document inside .body) valid (usable ranking isFirst) expanded
  refine ⟨fun ranking terms isFirst expanded term member =>
    (found ranking terms isFirst expanded term member).2, fun cause failed => ?_⟩
  have wellFormed : engine.index.WellFormed :=
    (Index.ofDocuments_consistent documents stopwords).wellFormed
  refine searchWithFeedback_reads wellFormed rfl parsed ?_ _ failed cause rfl
  intro ranking terms isFirst expanded
  obtain ⟨-, -, fraction⟩ := Feedback.validate_eq_ok_iff.mp valid
  obtain ⟨printedQuery, printedRest, printedTerms⟩ : _ ∧ _ ∧ ∀ weight ∈ terms.map (·.weight), _ := by
    simpa only [List.forall_mem_cons] using printed ranking terms isFirst expanded
  refine ⟨fun term member => ?_,
    Query.isWritten_of_printed printedQuery (Number.finite_nonneg_of_isFraction fraction),
    Query.isWritten_of_printed printedRest (Number.roundToFourPlaces_one_sub fraction)⟩
  obtain ⟨isTerm, allowed⟩ := found ranking terms isFirst expanded term member
  exact ⟨isTerm, Query.isWritten_of_printed (printedTerms _ (List.mem_map_of_mem member)) allowed⟩

end Engine

/-! ## A collection with an empty body -/

/-- Two documents have the same title, and one of them has no body. -/
def halfEmpty : List Document :=
  [⟨"first", ⟨[], ["apple"], [], [], []⟩⟩, ⟨"second", ⟨["pie"], ["apple"], [], [], []⟩⟩,
    ⟨"third", ⟨["tart"], [], [], [], []⟩⟩]

theorem mem_analyze_of_mem_halfEmpty {document : Document} (inside : document ∈ halfEmpty)
    (field : Field) {token : String} (member : token ∈ document.fields.get field) :
    token ∈ (Analyzer.ofStopwords []).analyze token := by
  have spelled : token = "apple" ∨ token = "pie" ∨ token = "tart" := by
    fin_cases inside <;> cases field <;> simp_all [FieldTable.get]
  have itself : (Analyzer.ofStopwords []).analyze token = [token] := by
    rcases spelled with rfl | rfl | rfl <;>
      exact Analyzer.analyze_eq_singleton (by decide) (by decide +kernel)
  rw [itself]
  exact List.mem_cons_self

section HalfEmpty

variable {ω : Type} [Arithmetic ω]

/-- The documents with the title. -/
def Query.appleTitle : Query ω :=
  .apply (.scoring .and) [(Query.term "apple" .title).score] [1]

theorem Engine.parse_appleTitle (index : Index) (parameters : Indri ω) :
    (⟨index, .indri parameters, .ofStopwords []⟩ : Engine ω).parse "apple.title" =
      .ok .appleTitle := by
  have named := Operator.isNamed_label_defaultOperator (Model.indri parameters)
  have apple : (Analyzer.ofStopwords []).analyze "apple" = ["apple"] :=
    Analyzer.analyze_eq_singleton (by decide) (by decide +kernel)
  have standsFor : Query.StandsFor (.ofStopwords []) "apple.title"
      [(Query.term "apple" .title : Query ω)] :=
    .inr ⟨"apple", "title", .title, by decide, by decide, by decide, by rw [apple]; rfl⟩
  have operand : Query.Operand (.ofStopwords []) (.scoring .and) _ _ := .terms (by decide) standsFor
  exact (Query.parse_eq_ok_iff_of_isNamed named).mpr ⟨_, .plain rfl operand .nil, rfl⟩

theorem Feedback.exists_expansionTerms_halfEmpty {feedback : Feedback ω} {ranking : Ranking ω}
    {first second : ω} (some : feedback.terms ≠ 0)
    (ranked : (ranking.take feedback.documents).Perm [⟨0, first⟩, ⟨1, second⟩]) :
    ∃ terms, feedback.expansionTerms (.ofDocuments halfEmpty []) ranking = .ok terms ∧
      terms ≠ [] := by
  refine exists_expansionTerms (by decide) some (fun scored inside => ?_)
    ⟨⟨1, second⟩, ranked.mem_iff.mpr (by simp), _, rfl, "pie", List.mem_cons_self, by decide⟩
  rcases (by simpa using ranked.mem_iff.mp inside : scored = ⟨0, first⟩ ∨ scored = ⟨1, second⟩) with
    rfl | rfl
  · exact ⟨_, rfl⟩
  · exact ⟨_, rfl⟩

end HalfEmpty

/-- The logarithm of two, and zero for all else. -/
def logarithmOfTwo (number : Float) : Float :=
  if number == 2 then 0.6931471805599453 else 0

theorem Number.isLogarithm_logarithmOfTwo : IsLogarithm logarithmOfTwo where
  nonneg _ _ _ := by
    rw [logarithmOfTwo]
    split <;> decide
  le _ _ _ := by
    rw [logarithmOfTwo]
    split <;> decide

/-- The two documents with the title are relevant, and the collection smooths their terms. -/
def Feedback.smoothed : Feedback (FloatWith logarithmOfTwo) :=
  ⟨2, 5, 1, Arithmetic.ofNat 1 / Arithmetic.ofNat 2, none, none⟩

/-- The two documents with the title, ranked alike. -/
def halfEmptyRanking : Ranking (FloatWith logarithmOfTwo) := [⟨0, 1⟩, ⟨1, 1⟩]

theorem Feedback.exists_relevant_smoothed : ∃ first second,
    (Index.ofDocuments halfEmpty []).termVector .body 0 = .ok first ∧
      (Index.ofDocuments halfEmpty []).termVector .body 1 = .ok second ∧
        smoothed.relevant (.ofDocuments halfEmpty []) halfEmptyRanking =
          .ok [.ofVector 1 first, .ofVector 1 second] :=
  ⟨_, _, rfl, rfl, rfl⟩

theorem Feedback.weight_smoothed {terms : List (ExpansionTerm (FloatWith logarithmOfTwo))}
    (expanded : smoothed.expansionTerms (.ofDocuments halfEmpty []) halfEmptyRanking = .ok terms)
    {term : ExpansionTerm (FloatWith logarithmOfTwo)} (member : term ∈ terms) :
    term.weight = Arithmetic.ofNat 8664 / Arithmetic.ofNat 10000 := by
  obtain ⟨relevant, read, ⟨document, inside, isTerm⟩, weight⟩ :=
    exists_of_mem_expansionTerms expanded member
  obtain ⟨first, second, isFirst, isSecond, both⟩ := exists_relevant_smoothed
  obtain rfl := Except.ok.inj (read.symm.trans both)
  obtain ⟨_, ⟨⟩, firstLength, firstStems⟩ := Index.exists_of_termVector isFirst
  obtain ⟨_, ⟨⟩, secondLength, secondStems⟩ := Index.exists_of_termVector isSecond
  have isPie : term.term = "pie" := by
    rcases (by simpa using inside : document = .ofVector 1 first ∨ document = .ofVector 1 second)
      with rfl | rfl
    · rw [RelevantDocument.ofVector, firstStems, mem_firstOccurrences] at isTerm
      exact absurd isTerm List.not_mem_nil
    · rw [RelevantDocument.ofVector, secondStems, mem_firstOccurrences] at isTerm
      exact List.mem_singleton.mp isTerm
  have frequency :
      ((Index.ofDocuments halfEmpty []).invertedList .body "pie").collectionFrequency = 1 := by
    change ((ListTable.ofDocuments halfEmpty).find .body "pie").collectionFrequency = 1
    rw [ListTable.collectionFrequency_ofDocuments]
    decide
  have tokens : (Index.ofDocuments halfEmpty []).tokenCount .body = 2 := rfl
  have none : (RelevantDocument.ofVector (1 : FloatWith logarithmOfTwo) first).length = 0 :=
    firstLength
  have one : (RelevantDocument.ofVector (1 : FloatWith logarithmOfTwo) second).length = 1 :=
    secondLength
  rw [weight, isPie, termScore, frequency, tokens, if_neg Nat.one_ne_zero, List.map_cons,
    List.map_cons, List.map_nil, contribution, contribution,
    RelevantDocument.getD_counts isFirst rfl, RelevantDocument.getD_counts isSecond rfl, none, one]
  dsimp only [RelevantDocument.ofVector]
  decide +kernel

theorem Feedback.usable_smoothed :
    smoothed.Usable (.ofDocuments halfEmpty []) halfEmptyRanking where
  scores := by
    intro scored inside
    rcases (by simpa [halfEmptyRanking, smoothed] using inside :
      scored = ⟨0, 1⟩ ∨ scored = ⟨1, 1⟩) with rfl | rfl <;>
      exact ⟨by decide +kernel, by decide +kernel⟩
  smoothing := by decide +kernel
  few := by decide
  mass := .inl (by decide +kernel)

theorem Engine.searchWithFeedback_readable_halfEmpty :
    let engine : Engine (FloatWith logarithmOfTwo) :=
      ⟨.ofDocuments halfEmpty [],
        .indri ⟨Arithmetic.ofNat 2 / Arithmetic.ofNat 5, Arithmetic.ofNat 2500⟩, .ofStopwords []⟩
    engine.parse "apple.title" = .ok .appleTitle ∧ Feedback.smoothed.validate = .ok () ∧
      (∃ terms, Feedback.smoothed.expansionTerms engine.index halfEmptyRanking = .ok terms ∧
        terms ≠ [] ∧ ∀ term ∈ terms, Arithmetic.isFinite term.weight = true ∧ 0 ≤ term.weight) ∧
      ∀ cause, engine.searchWithFeedback .smoothed "apple.title" (some halfEmptyRanking) ≠
        .error (.query cause) := by
  intro engine
  have parsed : engine.parse "apple.title" = .ok .appleTitle := parse_appleTitle _ _
  have valid : Feedback.smoothed.validate = .ok () := by decide +kernel
  have analyzed : ∀ document ∈ halfEmpty, ∀ field, ∀ token ∈ document.fields.get field,
      ∃ text, token ∈ (Analyzer.ofStopwords []).analyze text :=
    fun document inside field token member =>
      ⟨token, mem_analyze_of_mem_halfEmpty inside field member⟩
  have printed : ∀ terms, Feedback.smoothed.expansionTerms engine.index halfEmptyRanking = .ok terms →
      ∀ weight ∈ Feedback.smoothed.queryWeight ::
        roundToFourPlaces (1 - Feedback.smoothed.queryWeight) :: terms.map (·.weight),
          Arithmetic.read? (Arithmetic.write weight) = some weight := by
    intro terms expanded
    rw [List.forall_mem_cons, List.forall_mem_cons, List.forall_mem_map]
    refine ⟨by decide +kernel, by decide +kernel, fun term member => ?_⟩
    rw [Feedback.weight_smoothed expanded member]
    decide +kernel
  obtain ⟨readable, noFailure⟩ := @searchWithFeedback_readable _ Number.isLogarithm_logarithmOfTwo
    halfEmpty [] _ _ _ analyzed _ valid _ _ (some halfEmptyRanking) parsed
    (by rintro _ ⟨⟩; exact Feedback.usable_smoothed) (by rintro _ terms ⟨⟩; exact printed terms)
  obtain ⟨terms, expanded, added⟩ : ∃ terms,
      Feedback.smoothed.expansionTerms engine.index halfEmptyRanking = .ok terms ∧ terms ≠ [] :=
    Feedback.exists_expansionTerms_halfEmpty (by decide) (.refl _)
  exact ⟨parsed, valid, ⟨terms, expanded, added, readable _ terms rfl expanded⟩, noFailure⟩

end Retrieval
