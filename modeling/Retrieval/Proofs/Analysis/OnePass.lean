import Retrieval.Proofs.Analysis.Stopwords

/-!
# Analysis in one pass

A text is analyzed in one pass that holds the lowercase form of the word which is being read. A character
that is neither letter nor digit ends the word, which is a term or dropped, and whatever stands before such
a character is analyzed apart from what stands behind it.
-/

namespace Retrieval.Analyzer

variable {run : List Char}

/-- What has been read of a text. -/
structure Progress where
  /-- The terms. -/
  terms : List String
  /-- The lowercase form of the word that has not ended. -/
  word : String

namespace Progress

/-- Ends the word, if there is one. -/
def finish (analyzer : Analyzer) (progress : Progress) : Progress :=
  if progress.word.isEmpty then progress
  else if analyzer.keeps progress.word then ⟨progress.terms ++ [progress.word], ""⟩
  else ⟨progress.terms, ""⟩

/-- Reads a character: it continues the word or ends it. -/
def read (analyzer : Analyzer) (progress : Progress) (character : Char) : Progress :=
  if Text.isAlphanumeric character then
    { progress with word := progress.word ++ String.ofList (Text.lowerCharacter character) }
  else progress.finish analyzer

end Progress

/-- Only the empty word has an empty lowercase form. -/
theorem normalize_eq_empty_iff : normalize run = "" ↔ run = [] := by
  rw [normalize, ← String.toList_inj, String.toList_ofList]
  constructor
  · intro empty
    refine List.eq_nil_iff_forall_not_mem.mpr fun character member => ?_
    exact Text.lowerCharacter_ne_nil character (List.flatMap_eq_nil_iff.mp empty character member)
  · rintro rfl
    rfl

/-- A word that ends is a term or dropped, and the next one has not begun. -/
theorem finish_normalize (analyzer : Analyzer) (terms : List String) (run : List Char) :
    Progress.finish analyzer ⟨terms, normalize run.reverse⟩ =
      ⟨terms ++ ((if run = [] then [] else [run.reverse]).map normalize).filter analyzer.keeps,
        normalize []⟩ := by
  have nothing : normalize [] = "" := rfl
  rw [Progress.finish, nothing]
  by_cases empty : run = []
  · subst empty
    simp [nothing]
  · have begun : (normalize run.reverse).isEmpty = false := by
      simpa [Bool.eq_false_iff, normalize_eq_empty_iff] using empty
    rw [begun, if_neg empty, List.map_singleton]
    cases kept : analyzer.keeps (normalize run.reverse) with
    | true => rw [List.filter_cons_of_pos kept, List.filter_nil]; rfl
    | false =>
        rw [List.filter_cons_of_neg (Bool.eq_false_iff.mp kept), List.filter_nil, List.append_nil]
        rfl

/-- A pass that is inside a word goes on to the terms of the runs that begin with it. -/
theorem terms_foldl_read (analyzer : Analyzer) (terms : List String) (run characters : List Char) :
    ((characters.foldl (Progress.read analyzer) ⟨terms, normalize run.reverse⟩).finish
        analyzer).terms =
      terms ++ ((Text.runsAfter Text.isAlphanumeric run characters).map normalize).filter
        analyzer.keeps := by
  induction characters generalizing terms run with
  | nil => rw [List.foldl_nil, finish_normalize, Text.runsAfter_nil]
  | cons character later induction =>
      rw [List.foldl_cons, Progress.read]
      cases letter : Text.isAlphanumeric character with
      | true =>
          have continued : normalize (character :: run).reverse =
              normalize run.reverse ++ String.ofList (Text.lowerCharacter character) := by
            simp [normalize]
          rw [if_pos rfl, ← continued, induction, Text.runsAfter_of_keep letter]
      | false =>
          have next := induction
            (terms ++ ((if run = [] then [] else [run.reverse]).map normalize).filter analyzer.keeps) []
          rw [if_neg Bool.false_ne_true, finish_normalize, Text.runsAfter_of_divide letter,
            List.map_append, List.filter_append, ← List.append_assoc]
          exact next

/-- A character that is neither letter nor digit divides a text into parts that are analyzed apart. -/
theorem analyze_append (analyzer : Analyzer) (text other : String) {divider : Char}
    (divides : Text.isAlphanumeric divider = false) :
    analyzer.analyze (text ++ String.singleton divider ++ other) =
      analyzer.analyze text ++ analyzer.analyze other := by
  have cut : (text ++ String.singleton divider ++ other).toList =
      text.toList ++ divider :: other.toList := by simp
  rw [analyze, cut, Text.runs_append_cons divides, List.map_append, List.filter_append]
  rfl

/-- The terms of a text are the lowercase forms of its maximal runs of letters and digits, in order, as
far as they are neither longer than 128 bytes nor stopwords. One pass over the text finds them. A
character that is neither letter nor digit divides a text into parts that are analyzed apart, and no term
is empty, overlong or a stopword. -/
theorem analyze_compositional (analyzer : Analyzer) (text : String) :
    (∃ runs, (∀ found, Text.MaximalRuns Text.isAlphanumeric text.toList found ↔ found = runs) ∧
      analyzer.analyze text =
        (runs.map fun run => String.ofList (run.flatMap Text.lowerCharacter)).filter fun word =>
          word.utf8ByteSize ≤ 128 && !analyzer.isStopword word) ∧
      analyzer.analyze text =
        ((text.toList.foldl (Progress.read analyzer) ⟨[], ""⟩).finish analyzer).terms ∧
      (∀ divider other, Text.isAlphanumeric divider = false →
        analyzer.analyze (text ++ String.singleton divider ++ other) =
          analyzer.analyze text ++ analyzer.analyze other) ∧
      ∀ term ∈ analyzer.analyze text,
        term ≠ "" ∧ term.utf8ByteSize ≤ 128 ∧ analyzer.isStopword term = false := by
  refine ⟨⟨Text.runs Text.isAlphanumeric text.toList, fun found => Text.maximalRuns_iff, rfl⟩, ?_,
    fun divider other => analyze_append analyzer text other, fun term member => ?_⟩
  · exact (terms_foldl_read analyzer [] [] text.toList).symm
  · obtain ⟨inside, keeps⟩ := List.mem_filter.mp member
    obtain ⟨run, among, rfl⟩ := List.mem_map.mp inside
    rw [Analyzer.keeps, Bool.and_eq_true, decide_eq_true_eq, Bool.not_eq_true'] at keeps
    exact ⟨fun empty => (Text.mem_runs among).1 (normalize_eq_empty_iff.mp empty), keeps⟩

/-- A stopword before a hyphen is dropped, and the word behind the hyphen is a term. -/
theorem analyze_compositional_hyphen :
    Text.isAlphanumeric '-' = false ∧
      (ofStopwords ["the"]).analyze ("The" ++ String.singleton '-' ++ "Köln") = ["köln"] ∧
      "köln" ∈ (ofStopwords ["the"]).analyze "Köln" ∧ "köln" ≠ "" ∧ "köln".utf8ByteSize ≤ 128 ∧
      (ofStopwords ["the"]).isStopword "köln" = false := by
  have divides : Text.isAlphanumeric '-' = false := by decide +kernel
  have dropped : (ofStopwords ["the"]).keeps "the" = false :=
    Bool.eq_false_iff.mpr fun keeps => ((keeps_ofStopwords _ _).mp keeps).2 "the" (by simp) (by decide)
  have kept : (ofStopwords ["the"]).keeps "köln" = true :=
    (keeps_ofStopwords _ _).mpr (by decide +kernel)
  have article : (ofStopwords ["the"]).analyze "The" = [] :=
    analyze_eq_nil_of_isSpelled (by decide +kernel) dropped
  have city : (ofStopwords ["the"]).analyze "Köln" = ["köln"] := by
    have form : normalize "Köln".toList = "köln" := by decide +kernel
    rw [analyze_of_isSpelled (by decide +kernel) (by decide), form, List.filter_cons_of_pos kept,
      List.filter_nil]
  have member : "köln" ∈ (ofStopwords ["the"]).analyze "Köln" := city ▸ List.mem_singleton_self _
  refine ⟨divides, ?_, member, (analyze_compositional _ "Köln").2.2.2 "köln" member⟩
  rw [(analyze_compositional _ "The").2.2.1 '-' "Köln" divides, article, city]
  rfl

end Retrieval.Analyzer
