import Mathlib.Data.List.Basic
import Retrieval.Proofs.Query.Spelling

/-!
# Analyzing terms once more

A term consists of letters and digits that have been lowercased, and of the combining dots that a dotted
capital I leaves behind. When it is analyzed once more, only these dots divide it: a term without them
stays as it is, and every other one is cut into parts that stay as they are.
-/

namespace Retrieval

namespace Text

variable {characters run : List Char}

/-- The characters are their own lowercase forms, and besides letters and digits there are only combining
dots among them. -/
structure IsLowered (characters : List Char) : Prop where
  /-- No character has a lowercase form besides itself. -/
  lower : ∀ character ∈ characters, lowerCharacter character = [character]
  /-- The characters are letters, digits or combining dots. -/
  letter : ∀ character ∈ characters, isAlphanumeric character = true ∨ character = combiningDot

/-- The character is no combining dot. -/
def isUndotted (character : Char) : Bool := character ≠ combiningDot

namespace IsLowered

theorem of_subset (lowered : IsLowered characters) (subset : run ⊆ characters) : IsLowered run where
  lower character member := lowered.lower character (subset member)
  letter character member := lowered.letter character (subset member)

theorem flatMap_eq (lowered : IsLowered characters) :
    characters.flatMap lowerCharacter = characters := by
  rw [List.flatMap_congr lowered.lower]
  exact List.flatMap_singleton' characters

/-- Only combining dots divide what has been lowercased. -/
theorem runs_eq (lowered : IsLowered characters) :
    runs isAlphanumeric characters = runs isUndotted characters := by
  refine runs_congr fun character member => ?_
  rcases lowered.letter character member with letter | rfl
  · rw [letter, isUndotted, decide_eq_true (ne_combiningDot_of_isAlphanumeric letter)]
  · rw [isAlphanumeric_combiningDot, isUndotted, decide_eq_false (not_not_intro rfl)]

end IsLowered

/-- Lowercasing letters and digits leaves nothing to lowercase. -/
theorem isLowered_flatMap (letters : ∀ character ∈ characters, isAlphanumeric character = true) :
    IsLowered (characters.flatMap lowerCharacter) where
  lower lowered member := by
    obtain ⟨character, -, form⟩ := List.mem_flatMap.mp member
    exact lowerCharacter_of_mem form
  letter lowered member := by
    obtain ⟨character, inside, form⟩ := List.mem_flatMap.mp member
    exact (isAlphanumeric_of_mem_lowerCharacter (letters character inside) form).imp_right And.left

end Text

namespace Analyzer

variable {analyzer : Analyzer} {term text : String}

/-- The parts of a word between its combining dots. -/
def undottedParts (word : String) : List String :=
  (Text.runs Text.isUndotted word.toList).map String.ofList

theorem exists_of_mem_analyze (member : term ∈ analyzer.analyze text) :
    analyzer.keeps term = true ∧
      ∃ run ∈ Text.runs Text.isAlphanumeric text.toList, normalize run = term := by
  obtain ⟨inside, keeps⟩ := List.mem_filter.mp member
  exact ⟨keeps, List.mem_map.mp inside⟩

theorem isLowered_of_mem_analyze (member : term ∈ analyzer.analyze text) :
    Text.IsLowered term.toList := by
  obtain ⟨-, run, inside, rfl⟩ := exists_of_mem_analyze member
  rw [normalize, String.toList_ofList]
  exact Text.isLowered_flatMap fun character member => ((Text.mem_runs inside).2 character member).2

/-- A combining dot in a term comes from a dotted capital I in the text. -/
theorem combiningDot_notMem_of_mem_analyze (undotted : '\u0130' ∉ text.toList)
    (member : term ∈ analyzer.analyze text) : Text.combiningDot ∉ term.toList := by
  obtain ⟨-, run, inside, rfl⟩ := exists_of_mem_analyze member
  rw [normalize, String.toList_ofList]
  intro dot
  obtain ⟨character, among, form⟩ := List.mem_flatMap.mp dot
  obtain ⟨ofText, letter⟩ := (Text.mem_runs inside).2 character among
  rcases Text.isAlphanumeric_of_mem_lowerCharacter letter form with isLetter | ⟨-, rfl⟩
  · exact Text.ne_combiningDot_of_isAlphanumeric isLetter rfl
  · exact undotted ofText

theorem analyze_of_isLowered (lowered : Text.IsLowered term.toList) :
    analyzer.analyze term = (undottedParts term).filter analyzer.keeps := by
  have same : (Text.runs Text.isUndotted term.toList).map normalize = undottedParts term := by
    refine List.map_congr_left fun run member => ?_
    have part := lowered.of_subset fun character inside =>
      ((Text.mem_runs member).2 character inside).1
    rw [normalize, part.flatMap_eq]
  rw [analyze, lowered.runs_eq, same]

/-- A word that is kept, has been lowercased and has no combining dot is the only term in it. -/
theorem analyze_eq_self (lowered : Text.IsLowered term.toList) (nonempty : term.toList ≠ [])
    (undotted : Text.combiningDot ∉ term.toList) (keeps : analyzer.keeps term = true) :
    analyzer.analyze term = [term] := by
  have kept : ∀ character ∈ term.toList, Text.isUndotted character = true := fun character member =>
    decide_eq_true fun dot => undotted (dot ▸ member)
  rw [analyze_of_isLowered lowered, undottedParts, Text.runs_eq_singleton nonempty kept,
    List.map_singleton, String.ofList_toList, List.filter_cons_of_pos keeps, List.filter_nil]

theorem analyze_of_mem_undottedParts (lowered : Text.IsLowered term.toList) {part : String}
    (member : part ∈ undottedParts term) (keeps : analyzer.keeps part = true) :
    Text.combiningDot ∉ part.toList ∧ analyzer.analyze part = [part] := by
  obtain ⟨run, inside, rfl⟩ := List.mem_map.mp member
  obtain ⟨nonempty, kept⟩ := Text.mem_runs inside
  have undotted : Text.combiningDot ∉ run := fun dot => of_decide_eq_true (kept _ dot).2 rfl
  have partLowered := lowered.of_subset fun character inside => (kept character inside).1
  have spelled : (String.ofList run).toList = run := String.toList_ofList
  rw [← spelled] at undotted nonempty partLowered
  exact ⟨undotted, analyze_eq_self partLowered nonempty undotted keeps⟩

/-- A term that is analyzed once more is cut at its combining dots and nowhere else. It stays as it is
exactly if it has none, as all terms of a text without dotted capital I do, and in any case its parts stay
as they are. -/
theorem analyze_of_mem_analyze (analyzer : Analyzer) (text : String) {term : String}
    (member : term ∈ analyzer.analyze text) :
    analyzer.analyze term = (undottedParts term).filter analyzer.keeps ∧
      (analyzer.analyze term = [term] ↔ Text.combiningDot ∉ term.toList) ∧
      ('\u0130' ∉ text.toList → analyzer.analyze term = [term]) ∧
      ∀ part ∈ analyzer.analyze term, analyzer.analyze part = [part] := by
  have lowered := isLowered_of_mem_analyze member
  have analyzed : analyzer.analyze term = (undottedParts term).filter analyzer.keeps :=
    analyze_of_isLowered lowered
  have stays (undotted : Text.combiningDot ∉ term.toList) : analyzer.analyze term = [term] :=
    analyze_eq_self lowered (isTerm_of_mem_analyze member).1 undotted (exists_of_mem_analyze member).1
  refine ⟨analyzed, ⟨fun same => ?_, stays⟩, fun undotted => ?_, fun part inside => ?_⟩
  -- A term that stays is one of its own parts, and these have no combining dots.
  · have itself : term ∈ (undottedParts term).filter analyzer.keeps := by
      rw [← analyzed, same]
      exact List.mem_singleton_self term
    obtain ⟨isPart, keeps⟩ := List.mem_filter.mp itself
    exact (analyze_of_mem_undottedParts lowered isPart keeps).1
  · exact stays (combiningDot_notMem_of_mem_analyze undotted member)
  · obtain ⟨isPart, keeps⟩ := List.mem_filter.mp (analyzed ▸ inside)
    exact (analyze_of_mem_undottedParts lowered isPart keeps).2

/-- The capitals of a word that has no dotted one. -/
theorem analyze_of_mem_analyze_capitals : "köln" ∈ (ofStopwords []).analyze "KÖLN!" ∧
    (ofStopwords []).analyze "köln" = ["köln"] := by
  have found : (ofStopwords []).analyze "KÖLN!" = ["köln"] :=
    analyze_eq_singleton (by decide) (by decide +kernel)
  have member : "köln" ∈ (ofStopwords []).analyze "KÖLN!" := found ▸ List.mem_singleton_self _
  exact ⟨member, (analyze_of_mem_analyze (ofStopwords []) "KÖLN!" member).2.2.1 (by decide)⟩

/-- The dotted capital I becomes a term that is another one when it is analyzed once more. -/
theorem analyze_dottedCapital : (ofStopwords []).analyze "\u0130" = ["i\u0307"] ∧
    (ofStopwords []).analyze "i\u0307" = ["i"] :=
  ⟨analyze_eq_singleton (by decide) (by decide +kernel),
    analyze_eq_singleton (by decide) (by decide +kernel)⟩

end Analyzer

end Retrieval
