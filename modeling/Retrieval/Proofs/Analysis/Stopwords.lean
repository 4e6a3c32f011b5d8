import Retrieval.Proofs.Query.Spelling

/-!
# Listed stopwords

Stopwords are lowercased as whole texts and terms character by character. The two forms of a word differ
exactly if a capital sigma stands at its end. Any other listed word is no term in whatever case it is
written; one with such a sigma becomes a term in spite of the list.
-/

namespace Retrieval.Analyzer

variable {analyzer : Analyzer} {word term : String} {words : List String}

/-- The word consists of letters and digits. -/
def IsSpelled (word : String) : Prop :=
  ∀ character ∈ word.toList, Text.isAlphanumeric character = true

-- The characters of the word are tried, not all characters.
instance (word : String) : Decidable (IsSpelled word) := List.decidableBAll _ _

/-- The form in which a word is looked up is the one in which it is listed exactly if no capital sigma
ends it. -/
theorem normalize_eq_lowerText_iff (word : String) :
    normalize word.toList = Text.lowerText word ↔ ¬Text.HasFinalSigma word.toList := by
  rw [eq_comm, normalize, Text.lowerText_eq_iff]

theorem isStopword_ofStopwords (words : List String) (term : String) :
    (ofStopwords words).isStopword term = true ↔ ∃ word ∈ words, Text.lowerText word = term := by
  rw [isStopword, ofStopwords, Std.HashSet.contains_ofList, List.contains_iff_mem, List.mem_map]

/-- A term is kept if it is neither overlong nor the listed form of a word. -/
theorem keeps_ofStopwords (words : List String) (term : String) :
    (ofStopwords words).keeps term = true ↔
      term.utf8ByteSize ≤ maximalTermLength ∧ ∀ word ∈ words, Text.lowerText word ≠ term := by
  rw [keeps, Bool.and_eq_true, decide_eq_true_eq, Bool.not_eq_true', ← Bool.not_eq_true,
    isStopword_ofStopwords]
  exact and_congr_right' (by simp only [not_exists, not_and, ne_eq])

/-- A word of letters and digits is one run. -/
theorem analyze_of_isSpelled (spelled : IsSpelled word) (nonempty : word.toList ≠ []) :
    analyzer.analyze word = [normalize word.toList].filter analyzer.keeps := by
  rw [analyze, Text.runs_eq_singleton nonempty spelled, List.map_singleton]

/-- The normal form is the only term that a word of letters and digits may become. -/
theorem analyze_eq_nil_of_isSpelled (spelled : IsSpelled word)
    (dropped : analyzer.keeps (normalize word.toList) = false) : analyzer.analyze word = [] := by
  by_cases empty : word.toList = []
  · rw [analyze, empty]
    rfl
  · rw [analyze_of_isSpelled spelled empty,
      List.filter_cons_of_neg (Bool.eq_false_iff.mp dropped), List.filter_nil]

/-- A listed word, the capital sigmas of which do not end it, is a term in no case. -/
theorem keeps_normalize_of_mem (listed : word ∈ words) (inner : ¬Text.HasFinalSigma word.toList) :
    (ofStopwords words).keeps (normalize word.toList) = false := by
  refine Bool.eq_false_iff.mpr fun keeps => ?_
  obtain ⟨-, unlisted⟩ := (keeps_ofStopwords words _).mp keeps
  exact unlisted word listed ((normalize_eq_lowerText_iff word).mpr inner).symm

/-- The listed and the normal form of a word differ exactly if a capital sigma ends it. If none does, a
listed word leaves no term in any case; if one does, only its length or another listed word prevents it
from becoming a term. -/
theorem analyze_of_mem_stopwords {words : List String} {word : String} (listed : word ∈ words)
    (spelled : IsSpelled word) :
    (normalize word.toList = Text.lowerText word ↔ ¬Text.HasFinalSigma word.toList) ∧
      (¬Text.HasFinalSigma word.toList → (ofStopwords words).analyze word = [] ∧
        ∀ other, IsSpelled other → normalize other.toList = normalize word.toList →
          (ofStopwords words).analyze other = []) ∧
      (Text.HasFinalSigma word.toList →
        (ofStopwords words).analyze word =
          if maximalTermLength < (normalize word.toList).utf8ByteSize ∨
            ∃ other ∈ words, Text.lowerText other = normalize word.toList then []
          else [normalize word.toList]) := by
  refine ⟨normalize_eq_lowerText_iff word, fun inner => ?_, fun final => ?_⟩
  · have dropped := keeps_normalize_of_mem listed inner
    refine ⟨analyze_eq_nil_of_isSpelled spelled dropped, fun other isSpelled same => ?_⟩
    exact analyze_eq_nil_of_isSpelled isSpelled (same ▸ dropped)
  · have nonempty : word.toList ≠ [] := by
      obtain ⟨front, back, parts, -⟩ := final
      rw [parts]
      exact List.append_ne_nil_of_right_ne_nil front (List.cons_ne_nil _ _)
    split
    · next refused =>
        refine analyze_eq_nil_of_isSpelled spelled (Bool.eq_false_iff.mpr fun keeps => ?_)
        obtain ⟨short, unlisted⟩ := (keeps_ofStopwords words _).mp keeps
        rcases refused with long | ⟨other, isListed, same⟩
        · exact absurd short (Nat.not_le.mpr long)
        · exact unlisted other isListed same
    · next accepted =>
        obtain ⟨short, unlisted⟩ := not_or.mp accepted
        have keeps : (ofStopwords words).keeps (normalize word.toList) = true :=
          (keeps_ofStopwords words _).mpr ⟨Nat.not_lt.mp short,
            fun other isListed same => unlisted ⟨other, isListed, same⟩⟩
        rw [analyze_of_isSpelled spelled nonempty, List.filter_cons_of_pos keeps, List.filter_nil]

/-- A word in capitals, the sigma of which begins it, is dropped where it is listed in small letters. -/
theorem analyze_of_mem_stopwords_otherCase :
    "Σοφία" ∈ ["FOO", "Σοφία"] ∧ IsSpelled "Σοφία" ∧ IsSpelled "ΣΟΦΊΑ" ∧
      (ofStopwords ["FOO", "Σοφία"]).analyze "ΣΟΦΊΑ" = [] := by
  have listed : "Σοφία" ∈ ["FOO", "Σοφία"] := by decide
  have spelled : IsSpelled "Σοφία" := by decide +kernel
  have capitals : IsSpelled "ΣΟΦΊΑ" := by decide +kernel
  have inner : ¬Text.HasFinalSigma "Σοφία".toList :=
    (normalize_eq_lowerText_iff "Σοφία").mp (by decide +kernel)
  have same : normalize "ΣΟΦΊΑ".toList = normalize "Σοφία".toList := by decide +kernel
  exact ⟨listed, spelled, capitals,
    ((analyze_of_mem_stopwords listed spelled).2.1 inner).2 "ΣΟΦΊΑ" capitals same⟩

/-- A listed word that ends in a capital sigma is a term. -/
theorem analyze_finalSigma : IsSpelled "ΟΔΟΣ" ∧
    (ofStopwords ["ΟΔΟΣ"]).isStopword "οδος" = true ∧
    (ofStopwords ["ΟΔΟΣ"]).analyze "ΟΔΟΣ" = ["οδοσ"] := by
  have spelled : IsSpelled "ΟΔΟΣ" := by decide +kernel
  have form : normalize "ΟΔΟΣ".toList = "οδοσ" := by decide +kernel
  have keeps : (ofStopwords ["ΟΔΟΣ"]).keeps "οδοσ" = true :=
    (keeps_ofStopwords _ _).mpr (by decide +kernel)
  refine ⟨spelled, (isStopword_ofStopwords _ _).mpr (by decide +kernel), ?_⟩
  rw [analyze_of_isSpelled spelled (by decide), form, List.filter_cons_of_pos keeps, List.filter_nil]

end Retrieval.Analyzer
