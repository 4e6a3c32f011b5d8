import Retrieval.Proofs.Cursor.Protocol
import Retrieval.Proofs.Evaluation.Probabilities
import Retrieval.Proofs.Scoring.Rising

/-!
# Scores beside default scores

Under Indri an operator scores a document from those of its operands, and where an operand does not match
from its default score. So a match scores at least as much as it would by default, but for disjunctions:
their scores count the operands that match, and their default scores count all. The score of a match is
therefore compared with the default score of the query in which each disjunction that matches has only its
matching operands.
-/

namespace Retrieval

open ExactArithmetic

namespace Query

variable {ω : Type} [Arithmetic ω]

/-- A tree of conjunctions, disjunctions and their weighted forms over the scores of terms, where no weight
is negative. -/
inductive Graded : Query ω → Prop
  | score (text : String) (field : Field) (weights : List ω) :
      Graded (.apply (.scoring .score) [.term text field] weights)
  | apply {operator : ScoringOperator} {operands : List (Query ω)} {weights : List ω}
      (combines : operator = .and ∨ operator = .or ∨ operator = .wand ∨ operator = .wsum)
      (weighs : ∀ weight ∈ weights, 0 ≤ weight) (each : ∀ operand ∈ operands, Graded operand) :
      Graded (.apply (.scoring operator) operands weights)

mutual

/-- The query in which each disjunction that has the document has only those operands that have it. -/
def narrowed (index : Index) (document : DocumentId) : Query ω → Query ω
  | .term text field => .term text field
  | .apply operator operands weights =>
      if operator = .scoring .or then
        match narrowedMatches index document operands with
        | [] => .apply operator operands weights
        | kept => .apply operator kept weights
      else .apply operator (narrowedEach index document operands) weights

/-- Several queries, all narrowed. -/
def narrowedEach (index : Index) (document : DocumentId) : List (Query ω) → List (Query ω)
  | [] => []
  | query :: later => query.narrowed index document :: narrowedEach index document later

/-- Those queries that have the document, all narrowed. -/
def narrowedMatches (index : Index) (document : DocumentId) : List (Query ω) → List (Query ω)
  | [] => []
  | query :: later =>
      if document ∈ query.documentsOn index true then
        query.narrowed index document :: narrowedMatches index document later
      else narrowedMatches index document later

end

/-- The score of a document that the query matches, and the default score of any other. -/
def gradeAt (index : Index) (parameters : Indri ω) (document : DocumentId) (query : Query ω) :
    Except Error ω :=
  if document ∈ query.documentsOn index true then query.scoreAt index (.indri parameters) document
  else query.defaultAt index (.indri parameters) document

variable {index : Index} {document : DocumentId} {query : Query ω} {operands : List (Query ω)}

theorem narrowedEach_eq_map (queries : List (Query ω)) :
    narrowedEach index document queries = queries.map (narrowed index document) := by
  induction queries with
  | nil => simp [narrowedEach]
  | cons query later induction => simp [narrowedEach, induction]

theorem narrowedMatches_eq_map (queries : List (Query ω)) :
    narrowedMatches index document queries =
      (queries.filter fun query => document ∈ query.documentsOn index true).map
        (narrowed index document) := by
  induction queries with
  | nil => simp [narrowedMatches]
  | cons query later induction =>
      rw [narrowedMatches, induction]
      by_cases present : document ∈ query.documentsOn index true
      · simp [present]
      · simp [present]

theorem narrowed_of_ne_or {operator : ScoringOperator} (differs : operator ≠ .or) (weights : List ω) :
    (apply (.scoring operator) operands weights).narrowed index document =
      .apply (.scoring operator) (operands.map (narrowed index document)) weights := by
  rw [narrowed, if_neg (by simpa using differs), narrowedEach_eq_map]

theorem mem_documentsOn_or {weights : List ω} :
    document ∈ (apply (.scoring .or) operands weights).documentsOn index true ↔
      ∃ operand ∈ operands, document ∈ operand.documentsOn index true := by
  rw [documentsOn_scoring]
  simp [ScoringOperator.matching]

theorem narrowed_or_of_mem {weights : List ω}
    (present : document ∈ (apply (.scoring .or) operands weights).documentsOn index true) :
    (apply (.scoring .or) operands weights).narrowed index document =
      .apply (.scoring .or) ((operands.filter fun operand =>
        document ∈ operand.documentsOn index true).map (narrowed index document)) weights := by
  obtain ⟨operand, member, has⟩ := mem_documentsOn_or.mp present
  rw [narrowed, if_pos rfl, narrowedMatches_eq_map]
  split
  · next none =>
      rw [List.map_eq_nil_iff, List.filter_eq_nil_iff] at none
      exact absurd (decide_eq_true has) (none operand member)
  · rfl

theorem narrowed_or_of_notMem {weights : List ω}
    (absent : document ∉ (apply (.scoring .or) operands weights).documentsOn index true) :
    (apply (.scoring .or) operands weights).narrowed index document =
      .apply (.scoring .or) operands weights := by
  rw [mem_documentsOn_or] at absent
  have none : operands.filter (fun operand => document ∈ operand.documentsOn index true) = [] :=
    List.filter_eq_nil_iff.mpr fun operand member has =>
      absent ⟨operand, member, of_decide_eq_true has⟩
  rw [narrowed, if_pos rfl, narrowedMatches_eq_map, none]
  rfl

/-- A query is not narrowed if the disjunctions in it that have the document have it in all operands. -/
theorem narrowed_eq_self
    (full : ∀ operands weights, apply (.scoring .or) operands weights ∈ query.parts →
      document ∈ (apply (.scoring .or) operands weights).documentsOn index true →
      ∀ operand ∈ operands, document ∈ operand.documentsOn index true) :
    query.narrowed index document = query := by
  induction query using inductionOn with
  | term text field => rw [narrowed]
  | apply operator operands weights induction =>
      have same : ∀ operand ∈ operands, operand.narrowed index document = operand := by
        intro operand member
        refine induction operand member fun inner weights inside => full inner weights ?_
        exact mem_parts_apply.mpr (.inr ⟨operand, member, inside⟩)
      by_cases disjunction : operator = .scoring .or
      · subst disjunction
        by_cases present : document ∈ (apply (.scoring .or) operands weights).documentsOn index true
        · have all := full operands weights (mem_parts_self _) present
          rw [narrowed_or_of_mem present, List.filter_eq_self.mpr fun operand member =>
            decide_eq_true (all operand member), List.map_congr_left same, List.map_id']
        · rw [narrowed_or_of_notMem present]
      · rw [narrowed, if_neg disjunction, narrowedEach_eq_map, List.map_congr_left same, List.map_id']

/-! ## Grades of trees -/

/-- The operators that combine the scores of all operands. -/
theorem gradeAt_of_ne_or {parameters : Indri ω} {operator : ScoringOperator}
    (combines : operator = .and ∨ operator = .or ∨ operator = .wand ∨ operator = .wsum)
    (differs : operator ≠ .or) (weights : List ω) :
    (apply (.scoring operator) operands weights).gradeAt index parameters document =
      (operands.mapM (gradeAt index parameters document)).map (combine operator weights) := by
  have soft : operator.matching true = .any := by
    rcases combines with rfl | rfl | rfl | rfl <;> rfl
  rw [gradeAt]
  split
  · rw [scoreAt, combinedAt_of_ne_or combines differs, presentOrDefaultAt_scoresAt]
    rfl
  · next absent =>
      have missed : ∀ operand ∈ operands, operand.gradeAt index parameters document =
          operand.defaultAt index (.indri parameters) document := by
        intro operand member
        refine if_neg fun present => absent ?_
        rw [documentsOn_scoring]
        rw [soft]
        exact Matching.mem_documents_any.mpr ⟨_, List.mem_map_of_mem member, present⟩
      rw [mapM_congr missed, defaultAt_apply combines]

/-- A disjunction that has the document scores it by the operands that have it. -/
theorem scoreAt_or (parameters : Indri ω) (weights : List ω) :
    (apply (.scoring .or) operands weights).scoreAt index (.indri parameters) document =
      ((operands.filter fun operand => document ∈ operand.documentsOn index true).mapM
        (gradeAt index parameters document)).map noisyOr := by
  have graded : ∀ operand ∈ operands.filter fun operand => document ∈ operand.documentsOn index true,
      operand.gradeAt index parameters document =
        operand.scoreAt index (.indri parameters) document :=
    fun operand member => if_pos (of_decide_eq_true (List.mem_filter.mp member).2)
  rw [mapM_congr graded, scoreAt, combinedAt, presentAt_eq_mapM]
  rfl

section Grades

variable [ExactArithmetic ω] {parameters : Indri ω}

theorem exists_riseEach {α : Type} {items : List α} {low high : α → Except Error ω}
    (each : ∀ item ∈ items, ∃ least most, low item = .ok least ∧ high item = .ok most ∧
      Rises (value least) (value most)) :
    ∃ lows highs, items.mapM low = .ok lows ∧ items.mapM high = .ok highs ∧ RiseEach lows highs := by
  induction items with
  | nil => exact ⟨[], [], rfl, rfl, .nil⟩
  | cons item items induction =>
      obtain ⟨⟨least, most, isLow, isHigh, rises⟩, later⟩ := List.forall_mem_cons.mp each
      obtain ⟨lows, highs, areLow, areHigh, riseEach⟩ := induction later
      refine ⟨least :: lows, most :: highs, ?_, ?_, .cons rises riseEach⟩
      · rw [List.mapM_cons, isLow, areLow]
        rfl
      · rw [List.mapM_cons, isHigh, areHigh]
        rfl

/-- A smoothed probability exists, and it does not fall where the document has more occurrences. -/
theorem exists_rises_smoothedAt (consistent : index.Consistent) (valid : parameters.validate = .ok ())
    (bounded : document < index.documentCount) (fits : query.Fits index) {low high : Nat}
    (atMost : low ≤ high) (short : high ≤ index.lengthAt query.field document) :
    ∃ least most, query.smoothedAt index parameters document low = .ok least ∧
      query.smoothedAt index parameters document high = .ok most ∧
      Rises (value least) (value most) := by
  have collection : (query.listOn index).collectionFrequency ≤ index.tokenCount query.field := by
    rw [consistent.tokenCount_eq]
    exact (listOn_wellFormed consistent.wellFormed query).collectionFrequency_le fits
  refine ⟨_, _, ?_, ?_, Indri.rises_probability valid (value_ofNat_nonneg low) (value_ofNat_le atMost)
    (value_ofNat_le short) collection⟩
  · rw [smoothedAt, Index.fieldLength_eq _ bounded]
  · rw [smoothedAt, Index.fieldLength_eq _ bounded]

theorem exists_rises_score (consistent : index.Consistent) (valid : parameters.validate = .ok ())
    (bounded : document < index.documentCount) (text : String) (field : Field) (weights : List ω) :
    let query : Query ω := .apply (.scoring .score) [.term text field] weights
    ∃ least most, query.defaultAt index (.indri parameters) document = .ok least ∧
      query.gradeAt index parameters document = .ok most ∧
      Rises (value least) (value most) := by
  intro query
  have fits : (term text field : Query ω).Fits index := fits_of_hasUnion_eq_false consistent rfl
  have default : query.defaultAt index (.indri parameters) document =
      (term text field).smoothedAt index parameters document 0 := by
    simp only [query, defaultAt]
  rw [gradeAt, default]
  split
  · have score : query.scoreAt index (.indri parameters) document =
        (term text field).smoothedAt index parameters document
          ((listOn index (term text field : Query ω)).frequencyAt document) := rfl
    rw [score]
    exact exists_rises_smoothedAt consistent valid bounded fits (Nat.zero_le _)
      (fits.frequencyAt_le document)
  · exact exists_rises_smoothedAt consistent valid bounded fits le_rfl (Nat.zero_le _)

theorem nonneg_values {weights : List ω} (weighs : ∀ weight ∈ weights, 0 ≤ weight) :
    ∀ weight ∈ weights, 0 ≤ value weight := by
  intro weight member
  have nonneg := weighs weight member
  rwa [le_iff, value_zero] at nonneg

/-- Every default score of a tree exists and is a fraction. -/
theorem Graded.exists_default (powers : PowersRise ω) (consistent : index.Consistent)
    (valid : parameters.validate = .ok ()) (bounded : document < index.documentCount)
    (graded : query.Graded) :
    ∃ default, query.defaultAt index (.indri parameters) document = .ok default ∧
      Rises (value default) (value default) := by
  induction graded with
  | score text field weights =>
      obtain ⟨least, most, isDefault, -, rises⟩ :=
        exists_rises_score consistent valid bounded text field weights
      exact ⟨least, isDefault, rises.low_self⟩
  | @apply operator operands weights combines weighs each induction =>
      have answered : ∀ operand ∈ operands, ∃ least most,
          operand.defaultAt index (.indri parameters) document = .ok least ∧
          operand.defaultAt index (.indri parameters) document = .ok most ∧
          Rises (value least) (value most) := by
        intro operand member
        obtain ⟨default, isDefault, rises⟩ := induction operand member
        exact ⟨default, default, isDefault, isDefault, rises⟩
      obtain ⟨lows, highs, areLow, -, riseEach⟩ := exists_riseEach answered
      refine ⟨combine operator weights lows, ?_,
        (powers.rises_combine combines (nonneg_values weighs) riseEach).low_self⟩
      rw [defaultAt_apply combines, areLow]
      rfl

theorem value_combine_or (weights probabilities : List ω) :
    value (combine .or weights probabilities) = value (noisyOr probabilities) := by
  cases probabilities with
  | nil => simp [combine, noisyOr, value_sub, value_product]
  | cons first later => rfl

/-- The grade of a tree exists, and it is not less than the default score of the narrowed tree. -/
theorem Graded.exists_rises (powers : PowersRise ω) (consistent : index.Consistent)
    (valid : parameters.validate = .ok ()) (bounded : document < index.documentCount)
    (graded : query.Graded) :
    ∃ least grade, (query.narrowed index document).defaultAt index (.indri parameters) document =
        .ok least ∧
      query.gradeAt index parameters document = .ok grade ∧
      Rises (value least) (value grade) := by
  have whole := graded
  induction graded with
  | score text field weights =>
      rw [narrowed_of_ne_or (by decide)]
      exact exists_rises_score consistent valid bounded text field weights
  | @apply operator operands weights combines weighs each induction =>
      have answered := fun operand member => induction operand member (each operand member)
      by_cases disjunction : operator = .or
      · subst disjunction
        by_cases present : document ∈ Query.documentsOn index true (.apply (.scoring .or) operands weights)
        · obtain ⟨lows, highs, areLow, areHigh, riseEach⟩ := exists_riseEach fun operand member =>
            answered operand (List.mem_of_mem_filter member)
          refine ⟨combine .or weights lows, noisyOr highs, ?_, ?_, ?_⟩
          · rw [narrowed_or_of_mem present, defaultAt_apply combines, List.mapM_map]
            exact congrArg (Except.map _) areLow
          · rw [gradeAt, if_pos present, scoreAt_or, areHigh]
            rfl
          · rw [value_combine_or]
            exact rises_noisyOr riseEach
        · obtain ⟨default, isDefault, rises⟩ :=
            whole.exists_default powers consistent valid bounded
          refine ⟨default, default, ?_, ?_, rises⟩
          · rw [narrowed_or_of_notMem present, isDefault]
          · exact (if_neg present).trans isDefault
      · obtain ⟨lows, highs, areLow, areHigh, riseEach⟩ := exists_riseEach answered
        refine ⟨combine operator weights lows, combine operator weights highs, ?_, ?_,
          powers.rises_combine combines (nonneg_values weighs) riseEach⟩
        · rw [narrowed_of_ne_or disjunction, defaultAt_apply combines, List.mapM_map]
          exact congrArg (Except.map _) areLow
        · rw [gradeAt_of_ne_or combines disjunction, areHigh]
          rfl

end Grades

end Query

/-! ## A collection of two words -/

/-- The index of one document, with two tokens in its body. -/
def catDog : Index := .ofDocuments [⟨"first", ⟨["cat", "dog"], [], [], [], []⟩⟩] []

theorem invertedList_catDog :
    catDog.invertedList .body "cat" = ⟨.body, 1, 1, [⟨0, 1, [0]⟩]⟩ ∧
      catDog.invertedList .body "dog" = ⟨.body, 1, 1, [⟨0, 1, [1]⟩]⟩ ∧
      catDog.invertedList .body "emu" = .empty .body := by
  have entered : catDog.lists =
      ((∅ : ListTable).insert (.body, "dog") ⟨.body, 1, 1, [⟨0, 1, [1]⟩]⟩).insert (.body, "cat")
        ⟨.body, 1, 1, [⟨0, 1, [0]⟩]⟩ := by
    simp [catDog, Index.ofDocuments, ListTable.ofDocuments, ListTable.enterDocument, Field.all,
      FieldTable.get, ListTable.enterTokens, ListTable.find, InvertedList.enter, InvertedList.empty,
      InvertedList.cons, Posting.ofPositions, Std.HashMap.getD_insert]
  refine ⟨?_, ?_, ?_⟩
  · rw [Index.invertedList, entered, ListTable.find_insert, if_pos rfl]
  · rw [Index.invertedList, entered, ListTable.find_insert, if_neg (by simp), ListTable.find_insert,
      if_pos rfl]
  · rw [Index.invertedList, entered, ListTable.find_insert, if_neg (by simp), ListTable.find_insert,
      if_neg (by simp)]
    simp [ListTable.find]

namespace Query

/-- The score of a word in the body. -/
noncomputable def word (text : String) : Query RealNumber := (term text .body).score

theorem documentsOn_word : (word "cat").documentsOn catDog true = {0} ∧
    (word "dog").documentsOn catDog true = {0} ∧ (word "emu").documentsOn catDog true = ∅ := by
  have ofList : ∀ text, (word text).documentsOn catDog true =
      (catDog.invertedList .body text).documents := by
    intro text
    rw [word, score, documentsOn_scoring]
    exact (documentsOn_of_isList _ _ rfl).trans (by rw [listOn_term])
  rw [ofList, ofList, ofList, invertedList_catDog.1, invertedList_catDog.2.1,
    invertedList_catDog.2.2]
  exact ⟨rfl, rfl, rfl⟩

/-- The smoothed probability of a word in the document, with the usual parameters. -/
noncomputable def wordProbability (frequency collectionFrequency : Nat) : RealNumber :=
  Indri.usualExactly.probability (Arithmetic.ofNat frequency) (Arithmetic.ofNat 2) collectionFrequency 2

theorem value_wordProbability (frequency collectionFrequency : Nat) :
    value (wordProbability frequency collectionFrequency) =
      let share : ℝ := (if collectionFrequency = 0 then (1 / 2 : ℝ) else collectionFrequency) / 2
      0.6 * ((frequency + 2500 * share) / 2502) + 0.4 * share := by
  have mass : (0 : RealNumber) < Arithmetic.ofNat 2 + ⟨2500⟩ := by
    rw [lt_iff, value_add, value_ofNat, value_zero, RealNumber.value_mk]
    norm_num
  have share : value (Indri.collectionShare RealNumber collectionFrequency 2) =
      (if collectionFrequency = 0 then (1 / 2 : ℝ) else collectionFrequency) / 2 := by
    rw [Indri.collectionShare, if_neg (by decide), RealNumber.value_quotient, value_ofNat]
    split <;> simp [value_ofNat]
  simp only [wordProbability, Indri.usualExactly, Indri.probability, mass, if_true, value_add, value_mul,
    value_sub, value_one, RealNumber.value_quotient, value_ofNat, RealNumber.value_mk, share]
  norm_num

theorem smoothedAt_word (text : String) (frequency : Nat) :
    (term text .body : Query RealNumber).smoothedAt catDog .usualExactly 0 frequency =
      .ok (wordProbability frequency (catDog.invertedList .body text).collectionFrequency) := by
  rw [smoothedAt, Index.fieldLength_eq _ (by decide : 0 < catDog.documentCount), listOn_term]
  rfl

theorem scoreAt_word (text : String) :
    (word text).scoreAt catDog (.indri .usualExactly) 0 =
      .ok (wordProbability ((catDog.invertedList .body text).frequencyAt 0)
        (catDog.invertedList .body text).collectionFrequency) := by
  rw [← smoothedAt_word, ← @listOn_term RealNumber]
  rfl

theorem defaultAt_word (text : String) :
    (word text).defaultAt catDog (.indri .usualExactly) 0 =
      .ok (wordProbability 0 (catDog.invertedList .body text).collectionFrequency) := by
  rw [← smoothedAt_word]
  simp only [word, score, defaultAt]

/-- The first word is scored where it stands, and the last one by default. -/
theorem answers_words :
    (word "cat").scoreAt catDog (.indri .usualExactly) 0 = .ok (wordProbability 1 1) ∧
      (word "cat").defaultAt catDog (.indri .usualExactly) 0 = .ok (wordProbability 0 1) ∧
      (word "emu").defaultAt catDog (.indri .usualExactly) 0 = .ok (wordProbability 0 0) := by
  rw [scoreAt_word, defaultAt_word, defaultAt_word, invertedList_catDog.1, invertedList_catDog.2.2]
  exact ⟨rfl, rfl, rfl⟩

/-- One word that occurs, or another one that does not. -/
noncomputable def catOrEmu : Query RealNumber := .apply (.scoring .or) [word "cat", word "emu"] [1, 1]

/-- A word that does not occur, less one that occurs. -/
noncomputable def emuLessCat : Query RealNumber :=
  .apply (.scoring .wsum) [word "emu", word "cat"] [1 + 1, 0 - 1]

/-- One word, or two words of which one does not occur. -/
noncomputable def catOrBoth : Query RealNumber :=
  .apply (.scoring .or) [word "cat", .apply (.scoring .and) [word "dog", word "emu"] [1, 1]] [1, 1]

theorem graded_word (text : String) : (word text).Graded := .score text .body _

/-- An operator over two trees, both weighing one, is a tree. -/
theorem graded_pair {operator : ScoringOperator} {left right : Query RealNumber}
    (combines : operator = .and ∨ operator = .or ∨ operator = .wand ∨ operator = .wsum)
    (first : left.Graded) (second : right.Graded) :
    Graded (.apply (.scoring operator) [left, right] [1, 1]) := by
  refine .apply combines (by simp [le_iff]) fun operand member => ?_
  rcases List.mem_pair.mp member with rfl | rfl
  · exact first
  · exact second

theorem documentsOn_catOrBoth : catOrBoth.documentsOn catDog true = {0} ∧
    ∀ operands weights, .apply (.scoring .or) operands weights ∈ catOrBoth.parts →
      0 ∈ documentsOn catDog true (.apply (.scoring .or) operands weights) →
      ∀ operand ∈ operands, 0 ∈ operand.documentsOn catDog true := by
  have both : documentsOn catDog true
      (.apply (.scoring .and) [word "dog", word "emu"] [(1 : RealNumber), 1]) = {0} := by
    simp [documentsOn_word, ScoringOperator.matching, Matching.documents]
  constructor
  · rw [catOrBoth, documentsOn_scoring, List.map_cons, List.map_cons, both, documentsOn_word.1]
    rfl
  · intro operands weights part
    have same : operands = [word "cat", .apply (.scoring .and) [word "dog", word "emu"] [1, 1]] := by
      simp [catOrBoth, word, score, parts, partsOfEach] at part
      exact part.1
    subst same
    simp [both, documentsOn_word]

/-- The document of two words matches the query, with a score below its default score. -/
def ScoresBelowDefault (query : Query RealNumber) : Prop :=
  let model : Model RealNumber := .indri .usualExactly
  let final := [Call.hasMatch].foldl (Cursor.perform catDog model) ((Cursor.ofQuery query).openOn catDog)
  final.current? = some 0 ∧ ∃ score default, (final.score catDog model).1 = .ok score ∧
    final.defaultScore catDog model 0 = .ok default ∧ value score < value default

theorem scoresBelowDefault_of_lt {query : Query RealNumber} {score default : RealNumber}
    (documents : query.documentsOn catDog true = {0})
    (scored : query.scoreAt catDog (.indri .usualExactly) 0 = .ok score)
    (defaulted : query.defaultAt catDog (.indri .usualExactly) 0 = .ok default)
    (below : value score < value default) : ScoresBelowDefault query := by
  have ascending : catDog.Ascending := Index.ofDocuments_ascending _ _
  have current := @Cursor.current?_settled _ _ _ ascending (.indri .usualExactly) query 0 documents
  obtain ⟨-, score_eq, default_eq⟩ := Cursor.answers_after_calls ascending [.hasMatch] current
  rw [Cursor.query_ofQuery] at score_eq default_eq
  exact ⟨current, score, default, score_eq.trans scored, default_eq.trans defaulted, below⟩

theorem scoresBelowDefault_catOrEmu : ScoresBelowDefault catOrEmu := by
  obtain ⟨score_eq, default_eq, other_eq⟩ := answers_words
  have documents : catOrEmu.documentsOn catDog true = {0} := by
    simp [catOrEmu, documentsOn_word, ScoringOperator.matching, Matching.documents]
  have present : 0 ∈ (word "cat").documentsOn catDog true := by simp [documentsOn_word]
  have found : [word "cat", word "emu"].filter (fun operand => 0 ∈ operand.documentsOn catDog true) =
      [word "cat"] := by
    simp [documentsOn_word]
  have scored : catOrEmu.scoreAt catDog (.indri .usualExactly) 0 = .ok (noisyOr [wordProbability 1 1]) := by
    rw [catOrEmu, scoreAt_or, found, List.mapM_cons, gradeAt, if_pos present, score_eq]
    rfl
  have defaulted : catOrEmu.defaultAt catDog (.indri .usualExactly) 0 =
      .ok (combine .or [1, 1] [wordProbability 0 1, wordProbability 0 0]) := by
    rw [catOrEmu, defaultAt_apply (by simp), List.mapM_cons, List.mapM_cons, default_eq, other_eq]
    rfl
  refine scoresBelowDefault_of_lt documents scored defaulted ?_
  rw [value_combine_or]
  simp only [noisyOr, value_sub, value_one, value_product, List.map_cons, List.map_nil,
    List.prod_cons, List.prod_nil, value_wordProbability]
  norm_num

theorem value_combine_two_less_one (left right : RealNumber) :
    value (combine .wsum [1 + 1, 0 - 1] [left, right]) = value left * 2 - value right := by
  have total : (0 : RealNumber) < 0 + (1 + 1) + (0 - 1) := by
    simp only [lt_iff, value_add, value_sub, value_zero, value_one]
    norm_num
  have weights : normalizedWeights [(1 + 1 : RealNumber), 0 - 1] 2 =
      [(1 + 1) / (0 + (1 + 1) + (0 - 1)), (0 - 1) / (0 + (1 + 1) + (0 - 1))] := by
    simp only [normalizedWeights, List.range_succ, List.range_zero, List.nil_append, List.map_cons,
      List.cons_append, List.map_nil, weightAt, List.getD_cons_zero, List.getD_cons_succ, Arithmetic.sum,
      List.foldl_cons, List.foldl_nil, total, if_true]
  rw [combine, if_neg (by simp)]
  simp only [List.length_cons, List.length_nil, Nat.zero_add, Nat.reduceAdd, weights,
    List.zipWith_cons_cons, List.zipWith_nil_left, value_sumFromFirst, List.map_cons, List.map_nil,
    List.sum_cons, List.sum_nil, value_mul, RealNumber.value_quotient, value_add, value_sub, value_zero,
    value_one]
  ring

theorem scoresBelowDefault_emuLessCat : ScoresBelowDefault emuLessCat := by
  obtain ⟨score_eq, default_eq, other_eq⟩ := answers_words
  have documents : emuLessCat.documentsOn catDog true = {0} := by
    simp [emuLessCat, documentsOn_word, ScoringOperator.matching, Matching.documents]
  have present : 0 ∈ (word "cat").documentsOn catDog true := by simp [documentsOn_word]
  have absent : 0 ∉ (word "emu").documentsOn catDog true := by simp [documentsOn_word]
  have matching : 0 ∈ emuLessCat.documentsOn catDog true := by simp [documents]
  have scored : emuLessCat.scoreAt catDog (.indri .usualExactly) 0 =
      .ok (combine .wsum [1 + 1, 0 - 1] [wordProbability 0 0, wordProbability 1 1]) := by
    have graded : emuLessCat.gradeAt catDog .usualExactly 0 =
        emuLessCat.scoreAt catDog (.indri .usualExactly) 0 := if_pos matching
    rw [← graded, emuLessCat, gradeAt_of_ne_or (by simp) (by decide), List.mapM_cons, List.mapM_cons,
      gradeAt, if_neg absent, other_eq, gradeAt, if_pos present, score_eq]
    rfl
  have defaulted : emuLessCat.defaultAt catDog (.indri .usualExactly) 0 =
      .ok (combine .wsum [1 + 1, 0 - 1] [wordProbability 0 0, wordProbability 0 1]) := by
    rw [emuLessCat, defaultAt_apply (by simp), List.mapM_cons, List.mapM_cons, default_eq, other_eq]
    rfl
  refine scoresBelowDefault_of_lt documents scored defaulted ?_
  rw [value_combine_two_less_one, value_combine_two_less_one, value_wordProbability,
    value_wordProbability, value_wordProbability]
  norm_num

end Query

/-! ## Matches beside defaults -/

namespace Cursor

/-- In exact arithmetic a match scores at least as much as the default score of the query in which each
disjunction that has the document has only those operands that have it. So where every such disjunction
has the document in all operands, a match scores at least as much as its own default score. -/
theorem defaultScore_le_score {ω : Type} [Arithmetic ω] [ExactArithmetic ω] (powers : PowersRise ω)
    (documents : List Document) (stopwords : List String) {parameters : Indri ω}
    (valid : parameters.validate = .ok ()) {cursor : Cursor ω} (graded : cursor.query.Graded)
    (calls : List Call) {document : DocumentId} :
    let index := Index.ofDocuments documents stopwords
    let model : Model ω := .indri parameters
    let final := calls.foldl (perform index model) (cursor.openOn index)
    final.current? = some document →
      ∃ score default least, (final.score index model).1 = .ok score ∧
        final.defaultScore index model document = .ok default ∧
        ((ofQuery (cursor.query.narrowed index document)).openOn index).defaultScore index model
          document = .ok least ∧
        value least ≤ value score ∧
        ((∀ operands weights, .apply (.scoring .or) operands weights ∈ cursor.query.parts →
            document ∈ Query.documentsOn index true (.apply (.scoring .or) operands weights) →
            ∀ operand ∈ operands, document ∈ operand.documentsOn index true) →
          value default ≤ value score) := by
  intro index model final current
  have ascending := Index.ofDocuments_ascending documents stopwords
  have consistent := Index.ofDocuments_consistent documents stopwords
  obtain ⟨present, score_eq, default_eq⟩ := answers_after_calls ascending calls current
  have bounded := Query.lt_of_mem_documentsOn consistent.wellFormed present
  obtain ⟨least, score, isLeast, isGrade, rises⟩ :=
    graded.exists_rises powers consistent valid bounded
  obtain ⟨default, isDefault, -⟩ := graded.exists_default powers consistent valid bounded
  refine ⟨score, default, least, ?_, ?_, ?_, rises.le, fun full => ?_⟩
  · rw [score_eq, ← isGrade]
    exact (if_pos present).symm
  · rw [default_eq, isDefault]
  · have stands := stands_openOn index true (ofQuery (cursor.query.narrowed index document))
    rw [stands.defaultScore_eq model document, query_ofQuery, isLeast]
  · rw [Query.narrowed_eq_self full, isDefault] at isLeast
    obtain rfl := Except.ok.inj isLeast
    exact rises.le

/-- A disjunction whose operands both match, one of them by one of its words. -/
theorem defaultScore_le_score_catOrBoth :
    let model : Model RealNumber := .indri .usualExactly
    let final := [Call.hasMatch].foldl (perform catDog model) ((ofQuery .catOrBoth).openOn catDog)
    final.current? = some 0 ∧ ∃ score default, (final.score catDog model).1 = .ok score ∧
      final.defaultScore catDog model 0 = .ok default ∧ value default ≤ value score := by
  intro model final
  have current : final.current? = some 0 :=
    current?_settled (Index.ofDocuments_ascending _ _) Query.documentsOn_catOrBoth.1
  have graded : (ofQuery Query.catOrBoth).query.Graded := by
    rw [query_ofQuery]
    exact Query.graded_pair (by simp) (Query.graded_word "cat")
      (Query.graded_pair (by simp) (Query.graded_word "dog") (Query.graded_word "emu"))
  obtain ⟨score, default, least, isScore, isDefault, -, -, atMost⟩ :=
    defaultScore_le_score RealNumber.powersRise _ _ Indri.validate_usualExactly graded [.hasMatch] current
  refine ⟨current, score, default, isScore, isDefault, atMost ?_⟩
  rw [query_ofQuery]
  exact Query.documentsOn_catOrBoth.2

/-- A disjunction scores a document without one of its operands less than by default, and so does a sum
with a negative weight. -/
theorem score_lt_defaultScore :
    PowersRise RealNumber ∧ Indri.usualExactly.validate = .ok () ∧
      Query.catOrEmu.Graded ∧ Query.catOrEmu.ScoresBelowDefault ∧
        Query.emuLessCat.ScoresBelowDefault := by
  exact ⟨RealNumber.powersRise, Indri.validate_usualExactly,
    Query.graded_pair (by simp) (Query.graded_word "cat") (Query.graded_word "emu"),
    Query.scoresBelowDefault_catOrEmu, Query.scoresBelowDefault_emuLessCat⟩

end Cursor

end Retrieval
