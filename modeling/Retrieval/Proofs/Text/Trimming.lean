import Mathlib.Data.List.DropRight
import Retrieval.Text.Blank

/-!
# Trimming

A trimmed text has no blank at its ends, and a text without blanks at its ends is trimmed. Trimming only
takes characters away.
-/

namespace Retrieval.Text

/-- No blank stands at either end of the characters. -/
structure IsTrimmed (characters : List Char) : Prop where
  front : ∀ nonempty : characters ≠ [], isBlank (characters.head nonempty) = false
  back : ∀ nonempty : characters ≠ [], isBlank (characters.getLast nonempty) = false

theorem trimCharacters_eq (characters : List Char) :
    trimCharacters characters = (characters.dropWhile isBlank).rdropWhile isBlank := rfl

theorem isTrimmed_trimCharacters (characters : List Char) : IsTrimmed (trimCharacters characters) := by
  rw [trimCharacters_eq]
  constructor
  · intro nonempty
    -- Without the blanks at its end, the text still begins where it began.
    rw [(List.rdropWhile_prefix isBlank (characters.dropWhile isBlank)).head nonempty]
    exact List.head_dropWhile_not _ _
  · intro nonempty
    simpa using List.rdropWhile_last_not _ _ nonempty

theorem trimCharacters_of_isTrimmed {characters : List Char} (trimmed : IsTrimmed characters) :
    trimCharacters characters = characters := by
  have left : characters.dropWhile isBlank = characters := by
    rw [List.dropWhile_eq_self_iff]
    intro positive
    have nonempty := List.length_pos_iff.mp positive
    rw [← List.head_eq_getElem nonempty, trimmed.front nonempty]
    exact Bool.false_ne_true
  rw [trimCharacters_eq, left, List.rdropWhile_eq_self_iff]
  intro nonempty
  rw [trimmed.back nonempty]
  exact Bool.false_ne_true

theorem trim_eq_self_iff {text : String} : trim text = text ↔ IsTrimmed text.toList := by
  constructor
  · intro same
    have trimmed := isTrimmed_trimCharacters text.toList
    rwa [← String.toList_ofList (l := trimCharacters text.toList), ← trim, same] at trimmed
  · intro trimmed
    rw [trim, trimCharacters_of_isTrimmed trimmed, String.ofList_toList]

/-- Trimming once more changes nothing. -/
theorem trim_trim (text : String) : trim (trim text) = trim text := by
  rw [trim_eq_self_iff, trim, String.toList_ofList]
  exact isTrimmed_trimCharacters _

theorem trim_subset (text : String) : (trim text).toList ⊆ text.toList := by
  intro character member
  rw [trim, String.toList_ofList, trimCharacters, List.mem_reverse] at member
  have inner := (List.dropWhile_suffix _).subset member
  exact (List.dropWhile_suffix _).subset (List.mem_reverse.mp inner)

/-- A blank before a text is trimmed away. -/
theorem trim_blank_append (text : String) : trim (" " ++ text) = trim text := by
  have spelled : (" " ++ text).toList = ' ' :: text.toList := by simp
  rw [trim, spelled, trimCharacters, List.dropWhile_cons_of_pos (by decide)]
  rfl

end Retrieval.Text
