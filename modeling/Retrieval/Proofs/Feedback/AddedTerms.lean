import Retrieval.Feedback
import Retrieval.Proofs.Evaluation.Probabilities
import Retrieval.Proofs.Feedback.Heap
import Retrieval.Proofs.Text.Distinct

/-!
# The terms that are added

A shortlist only moves documents about and drops the weakest, so whatever it holds in the end has passed
by, also where undefined scores contradict each other; and it is not empty if anything has passed by. An
added term is therefore one of the candidates, with its rounded score as weight.
-/

namespace Retrieval

variable {ω : Type} [Arithmetic ω]

/-! ## Shortlists -/

namespace Shortlist

variable {list : Shortlist ω} {ranking : Ranking ω} {scored : Scored ω}

theorem mem_add {other : Scored ω} : other ∈ list.add scored ↔ other ∈ list ∨ other = scored := by
  rw [add, (raise_perm _ _).mem_iff, Array.mem_push]

theorem mem_of_mem_offer {capacity : Nat} {other : Scored ω}
    (member : other ∈ list.offer capacity scored) : other ∈ list ∨ other = scored := by
  rw [offer] at member
  split at member
  · exact mem_add.mp member
  · split at member
    · exact .inl member
    · next weakest first =>
        split at member
        · refine (mem_add.mp member).imp_left fun kept => ?_
          exact Array.mem_toList_iff.mp (dropWeakest_subset first (Array.mem_toList_iff.mpr kept))
        · exact .inl member

/-- A shortlist holds only what has passed by. -/
theorem mem_of_mem_ofRanking {capacity : Nat} (member : scored ∈ ofRanking capacity ranking) :
    scored ∈ ranking := by
  suffices passed : ∀ list : Shortlist ω, scored ∈ ranking.foldl (offer capacity) list →
      scored ∈ list ∨ scored ∈ ranking from (passed #[] member).resolve_left (Array.not_mem_empty _)
  clear member
  induction ranking with
  | nil => exact fun list member => .inl member
  | cons first later induction =>
      intro list member
      rcases induction _ member with before | later
      · rcases mem_of_mem_offer before with before | rfl
        · exact .inl before
        · exact .inr List.mem_cons_self
      · exact .inr (List.mem_cons_of_mem _ later)

theorem size_offer_pos {capacity : Nat} (room : 0 < capacity) (list : Shortlist ω)
    (scored : Scored ω) : 0 < (list.offer capacity scored).size := by
  rw [offer]
  split
  · simp
  · split
    · omega
    · split
      · simp
      · omega

theorem size_foldl_offer_pos {capacity : Nat} (room : 0 < capacity) (ranking : Ranking ω)
    (nonempty : 0 < list.size) : 0 < (ranking.foldl (offer capacity) list).size := by
  induction ranking generalizing list with
  | nil => exact nonempty
  | cons scored later induction => exact induction (size_offer_pos room list scored)

end Shortlist

namespace Ranking

variable {count : Nat} {ranking : Ranking ω}

/-- The strongest documents of a ranking are some of its documents. -/
theorem strongest_subset (count : Nat) (ranking : Ranking ω) : ranking.strongest count ⊆ ranking := by
  intro scored member
  rw [strongest, Shortlist.toRanking, Array.mem_toList_iff, (Shortlist.order_perm _ _).mem_iff]
    at member
  exact Shortlist.mem_of_mem_ofRanking member

theorem strongest_ne_nil (some : count ≠ 0) (nonempty : ranking ≠ []) :
    ranking.strongest count ≠ [] := by
  obtain ⟨scored, later, rfl⟩ := List.exists_cons_of_ne_nil nonempty
  have holds : 0 < (Shortlist.ofRanking count (scored :: later)).size :=
    Shortlist.size_foldl_offer_pos (Nat.pos_of_ne_zero some) later
      (Shortlist.size_offer_pos (Nat.pos_of_ne_zero some) #[] scored)
  have same := (Shortlist.order_perm (Shortlist.ofRanking count (scored :: later)).size
    (Shortlist.ofRanking count (scored :: later))).size_eq
  rw [strongest, Shortlist.toRanking, ne_eq, Array.toList_eq_nil_iff]
  rintro none
  rw [none] at same
  simp [← same] at holds

end Ranking

/-! ## Relevant documents -/

theorem Index.mem_of_document {documents : List Document} {stopwords : List String}
    {number : DocumentId} {document : Document}
    (read : (Index.ofDocuments documents stopwords).document number = .ok document) :
    document ∈ documents := by
  rw [Index.document] at read
  split at read
  · next other present =>
      obtain rfl := Except.ok.inj read
      exact List.mem_toArray.mp (Array.mem_of_getElem? present)
  · simp at read

theorem Index.exists_of_termVector {index : Index} {field : Field} {number : DocumentId}
    {vector : TermVector} (found : index.termVector field number = .ok vector) :
    ∃ document, index.document number = .ok document ∧
      vector.length = (document.fields.get field).length ∧
      vector.entries.map (·.stem) = firstOccurrences (document.fields.get field) := by
  rw [termVector] at found
  cases read : index.document number with
  | error cause => rw [read] at found; simp [Except.map] at found
  | ok document =>
      rw [read] at found
      obtain rfl := Except.ok.inj found
      refine ⟨document, rfl, rfl, ?_⟩
      rw [List.map_map]
      exact List.map_id _

omit [Arithmetic ω] in
/-- A relevant document counts how often each term occurs in its body. -/
theorem RelevantDocument.getD_counts {index : Index} {field : Field} {number : DocumentId}
    {vector : TermVector} {document : Document} (found : index.termVector field number = .ok vector)
    (read : index.document number = .ok document) (score : ω) (term : String) :
    (ofVector score vector).counts.getD term 0 = (document.fields.get field).count term := by
  rw [Index.termVector, read] at found
  obtain rfl := Except.ok.inj found
  simp only [ofVector, List.map_map, Function.comp_def, getD_tally]
  generalize document.fields.get field = tokens
  by_cases occurs : term ∈ tokens
  · refine Std.HashMap.getD_ofList_of_mem (beq_self_eq_true term) ?_
      (List.mem_map_of_mem (mem_firstOccurrences.mpr occurs))
    exact List.pairwise_map.mpr ((nodup_firstOccurrences tokens).imp beq_false_of_ne)
  · rw [Std.HashMap.getD_ofList_of_contains_eq_false, List.count_eq_zero.mpr occurs]
    simpa [Function.comp_def, mem_firstOccurrences] using occurs

namespace Feedback

variable {feedback : Feedback ω} {index : Index} {ranking : Ranking ω}
  {relevant : List (RelevantDocument ω)} {terms : List (ExpansionTerm ω)}

omit [Arithmetic ω] in
theorem mem_relevant_iff (found : feedback.relevant index ranking = .ok relevant)
    {document : RelevantDocument ω} :
    document ∈ relevant ↔ ∃ scored ∈ ranking.take feedback.documents, ∃ vector,
      index.termVector .body scored.document = .ok vector ∧
        RelevantDocument.ofVector scored.score vector = document := by
  simp only [mem_iff_of_mapM_eq_ok found]
  refine exists_congr fun scored => and_congr_right fun _ => ?_
  cases index.termVector .body scored.document <;> simp [Except.map]

/-! ## Added terms -/

theorem mem_candidates {candidate : Scored ω × String} :
    candidate ∈ feedback.candidates index relevant ↔
      (firstOccurrences (relevant.flatMap (·.terms)))[candidate.1.document]? = some candidate.2 ∧
        isWritable candidate.2 = true ∧
          candidate.1.score = feedback.termScore index relevant candidate.2 := by
  rw [candidates, List.mem_map]
  constructor
  · rintro ⟨⟨term, place⟩, kept, rfl⟩
    obtain ⟨inside, writable⟩ := List.mem_filter.mp kept
    exact ⟨List.mem_zipIdx_iff_getElem?.mp inside, writable, rfl⟩
  · obtain ⟨⟨place, score⟩, term⟩ := candidate
    rintro ⟨inside, writable, isScore⟩
    obtain rfl : score = feedback.termScore index relevant term := isScore
    exact ⟨(term, place), List.mem_filter.mpr ⟨List.mem_zipIdx_iff_getElem?.mpr inside, writable⟩, rfl⟩

/-- An added term is a term of a relevant document, and its weight is its rounded score. -/
theorem exists_of_mem_expansionTerms
    (found : feedback.expansionTerms index ranking = .ok terms) {term : ExpansionTerm ω}
    (member : term ∈ terms) : ∃ relevant, feedback.relevant index ranking = .ok relevant ∧
      (∃ document ∈ relevant, term.term ∈ document.terms) ∧
        term.weight = roundToFourPlaces (feedback.termScore index relevant term.term) := by
  rw [expansionTerms] at found
  split at found
  · obtain rfl := Except.ok.inj found
    exact absurd member List.not_mem_nil
  · cases read : feedback.relevant index ranking with
    | error cause => rw [read] at found; simp [Except.map] at found
    | ok relevant =>
        rw [read] at found
        obtain rfl := Except.ok.inj found
        obtain ⟨scored, best, made⟩ := List.mem_filterMap.mp member
        obtain ⟨⟨candidate, name⟩, first, rfl⟩ := Option.map_eq_some_iff.mp made
        obtain ⟨other, among, rfl⟩ := List.mem_map.mp (Ranking.strongest_subset _ _ best)
        have same : candidate.document = other.1.document := by
          simpa using List.find?_some first
        obtain ⟨place, -, -⟩ := mem_candidates.mp (List.mem_of_find?_eq_some first)
        obtain ⟨otherPlace, -, score⟩ := mem_candidates.mp among
        obtain rfl : other.2 = name := by
          rw [same, otherPlace] at place
          exact Option.some.inj place
        have inVocabulary := mem_firstOccurrences.mp (List.mem_of_getElem? otherPlace)
        exact ⟨relevant, rfl, List.mem_flatMap.mp inVocabulary, by rw [score]⟩

/-- If the ranked documents exist and one of them has a word that can be written, there are terms to
add. -/
theorem exists_expansionTerms (tokens : index.tokenCount .body ≠ 0) (some : feedback.terms ≠ 0)
    (known : ∀ scored ∈ ranking.take feedback.documents,
      ∃ document, index.document scored.document = .ok document)
    (filled : ∃ scored ∈ ranking.take feedback.documents, ∃ document,
      index.document scored.document = .ok document ∧
        ∃ word ∈ document.fields.get .body, isWritable word = true) :
    ∃ terms, feedback.expansionTerms index ranking = .ok terms ∧ terms ≠ [] := by
  obtain ⟨relevant, read, -, -⟩ : ∃ relevant, feedback.relevant index ranking = .ok relevant ∧
      relevant.length = (ranking.take feedback.documents).length ∧ ∀ document ∈ relevant, True :=
    exists_mapM_eq_ok fun scored inside => by
      obtain ⟨document, isDocument⟩ := known scored inside
      rw [Index.termVector, isDocument]
      exact ⟨_, rfl, trivial⟩
  obtain ⟨scored, inside, original, isOriginal, word, occurs, writable⟩ := filled
  obtain ⟨vector, isVector⟩ : ∃ vector, index.termVector .body scored.document = .ok vector := by
    rw [Index.termVector, isOriginal]
    exact ⟨_, rfl⟩
  obtain ⟨document, isDocument, -, stems⟩ := Index.exists_of_termVector isVector
  obtain rfl := Except.ok.inj (isOriginal.symm.trans isDocument)
  have isTerm : word ∈ vector.entries.map (·.stem) := stems ▸ mem_firstOccurrences.mpr occurs
  have among := (mem_relevant_iff read).mpr ⟨scored, inside, vector, isVector, rfl⟩
  have inVocabulary : word ∈ firstOccurrences (relevant.flatMap (·.terms)) :=
    mem_firstOccurrences.mpr (List.mem_flatMap.mpr ⟨_, among, isTerm⟩)
  obtain ⟨place, isPlace⟩ := List.getElem?_of_mem inVocabulary
  have candidate : ((⟨place, feedback.termScore index relevant word⟩, word) : Scored ω × String) ∈
      feedback.candidates index relevant := mem_candidates.mpr ⟨isPlace, writable, rfl⟩
  have nonempty := Ranking.strongest_ne_nil some (List.ne_nil_of_mem
    (List.mem_map_of_mem (f := Prod.fst) candidate))
  obtain ⟨best, isBest⟩ := List.exists_mem_of_ne_nil _ nonempty
  obtain ⟨other, listed, rfl⟩ := List.mem_map.mp (Ranking.strongest_subset _ _ isBest)
  refine ⟨_, by rw [expansionTerms, if_neg tokens, read]; rfl, fun none => ?_⟩
  have missing := List.filterMap_eq_nil_iff.mp none other.1 isBest
  rw [Option.map_eq_none_iff, List.find?_eq_none] at missing
  exact missing other listed (decide_eq_true rfl)

end Feedback

end Retrieval
