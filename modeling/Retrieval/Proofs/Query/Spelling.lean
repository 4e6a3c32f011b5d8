import Retrieval.Analyzer
import Retrieval.Proofs.Query.Words
import Retrieval.Proofs.Text.Lowercase
import Retrieval.Proofs.Text.Runs

/-!
# How terms and weights are spelled

All characters of a term lie beyond the point, since those of its run do and lowercasing leads to letters;
so a term, with or without a field behind it, is a word and names no operator. A written number is a
word as well.
-/

namespace Retrieval

/-! ## Terms -/

namespace Analyzer

variable {analyzer : Analyzer} {term text : String}

/-- The text has characters, all beyond the point. -/
def IsTerm (term : String) : Prop :=
  term.toList ≠ [] ∧ ∀ character ∈ term.toList, '.'.toNat < character.toNat

theorem isTerm_of_mem_analyze (member : term ∈ analyzer.analyze text) : IsTerm term := by
  rw [analyze] at member
  obtain ⟨run, inside, rfl⟩ := List.mem_map.mp (List.mem_filter.mp member).1
  obtain ⟨nonempty, alphanumeric⟩ := Text.mem_runs inside
  have beyond : ∀ character ∈ run, '.'.toNat < character.toNat := by
    intro character inside
    have first : '0'.toNat ≤ character.toNat :=
      Text.CodeRanges.le_of_contains (alphanumeric character inside).2
    exact Nat.lt_of_lt_of_le (by decide) first
  rw [IsTerm, normalize, String.toList_ofList]
  constructor
  · intro empty
    obtain ⟨character, inside⟩ := List.exists_mem_of_ne_nil run nonempty
    exact Text.lowerCharacter_ne_nil character (List.flatMap_eq_nil_iff.mp empty _ inside)
  · intro lowered member
    obtain ⟨character, inside, member⟩ := List.mem_flatMap.mp member
    exact Text.point_lt_of_mem_lowerCharacter (beyond character inside) member

/-- Without stopwords, short words are kept. -/
theorem keeps_of_short (short : text.utf8ByteSize ≤ maximalTermLength) :
    (ofStopwords []).keeps text = true := by
  have noStopword : (ofStopwords []).isStopword text = false := by
    simp [isStopword, ofStopwords, Std.HashSet.ofList_nil]
  rw [Analyzer.keeps, noStopword, decide_eq_true short]
  rfl

/-- Without stopwords, the short form of a single run is the only term of a text. -/
theorem analyze_eq_singleton (short : term.utf8ByteSize ≤ maximalTermLength)
    (found : (Text.runs Text.isAlphanumeric text.toList).map normalize = [term]) :
    (ofStopwords []).analyze text = [term] := by
  rw [analyze, found, List.filter_cons_of_pos (keeps_of_short short), List.filter_nil]

theorem IsTerm.isWord_alone (isTerm : IsTerm term) : Token.IsWord term :=
  ⟨isTerm.1, fun character member => Token.isPlain_of_comma_lt
    (Nat.lt_trans (by decide : ','.toNat < '.'.toNat) (isTerm.2 character member))⟩

theorem IsTerm.isWord (isTerm : IsTerm term) (field : Field) :
    Token.IsWord (term ++ "." ++ field.name) := by
  have isWord_name : Token.IsWord ("." ++ field.name) := by
    cases field <;> decide
  rw [String.append_assoc]
  refine ⟨by simp [isTerm.1], ?_⟩
  rw [String.toList_append]
  intro character member
  rcases List.mem_append.mp member with ofTerm | ofName
  · exact isTerm.isWord_alone.2 character ofTerm
  · exact isWord_name.2 character ofName

theorem IsTerm.head?_append_ne_sign (isTerm : IsTerm term) (behind : List Char) :
    (term.toList ++ behind).head? ≠ some '#' := by
  obtain ⟨first, later, spelled⟩ := List.exists_cons_of_ne_nil isTerm.1
  have beyond : '.'.toNat < first.toNat := isTerm.2 first (by simp [spelled])
  rw [spelled]
  rintro sign
  obtain rfl : first = '#' := by simpa using sign
  exact absurd beyond (by decide)

theorem IsTerm.head?_ne_sign (isTerm : IsTerm term) (field : Field) :
    (term ++ "." ++ field.name).toList.head? ≠ some '#' := by
  rw [String.toList_append, String.toList_append, List.append_assoc]
  exact isTerm.head?_append_ne_sign _

theorem IsTerm.point_notMem (isTerm : IsTerm term) : '.' ∉ term.toList :=
  fun member => Nat.lt_irrefl _ (isTerm.2 '.' member)

end Analyzer

/-! ## Weights -/

namespace Number

theorem mem_withPoint {places : Nat} {digits : List Char} {character : Char}
    (member : character ∈ withPoint places digits) :
    character ∈ digits ∨ character = '0' ∨ character = '.' := by
  have padded : ∀ {character : Char},
      character ∈ List.replicate (places + 1 - digits.length) '0' ++ digits →
        character ∈ digits ∨ character = '0' ∨ character = '.' := by
    intro character member
    rcases List.mem_append.mp member with padding | digit
    · exact .inr (.inl (List.eq_of_mem_replicate padding))
    · exact .inl digit
  rw [withPoint] at member
  split at member
  · exact padded (List.mem_of_mem_take member)
  · rcases List.mem_append.mp member with whole | behind
    · exact padded (List.mem_of_mem_take whole)
    · rcases List.mem_cons.mp behind with point | place
      · exact .inr (.inr point)
      · exact padded (List.mem_of_mem_drop place)

theorem withPoint_ne_nil (places : Nat) {digits : List Char} (nonempty : digits ≠ []) :
    withPoint places digits ≠ [] := by
  have positive := List.length_pos_iff.mpr nonempty
  rw [withPoint]
  split
  · next whole => simp [whole, nonempty]
  · simp

theorem mem_write {decimal : Decimal} {character : Char} (member : character ∈ decimal.write) :
    character.isDigit = true ∨ character = '.' := by
  rcases mem_withPoint member with digit | rfl | rfl
  · rcases List.mem_append.mp digit with significant | zero
    · exact .inl (Nat.isDigit_of_mem_toDigits (by decide) (by decide) significant)
    · rw [List.eq_of_mem_replicate zero]
      exact .inl rfl
  · exact .inl rfl
  · exact .inr rfl

/-- The characters of written numbers besides digits. -/
def signs : List Char := ['-', '.', 'N', 'a', 'i', 'n', 'f']

/-- The text has characters, all of them digits or signs. -/
def IsNumeral (text : String) : Prop :=
  text.toList ≠ [] ∧ ∀ character ∈ text.toList, character.isDigit = true ∨ character ∈ signs

-- The characters of the text are tried, not all characters.
instance (text : String) : Decidable (IsNumeral text) :=
  @instDecidableAnd _ _ inferInstance (List.decidableBAll _ _)

theorem isNumeral_signed (negative : Bool) {magnitude : List Char} (nonempty : magnitude ≠ [])
    (spelled : ∀ character ∈ magnitude, character.isDigit = true ∨ character = '.') :
    IsNumeral (String.ofList (if negative then '-' :: magnitude else magnitude)) := by
  have unsigned : ∀ character ∈ magnitude, character.isDigit = true ∨ character ∈ signs := by
    intro character member
    refine (spelled character member).imp_right ?_
    rintro rfl
    decide
  rw [IsNumeral, String.toList_ofList]
  cases negative with
  | false => exact ⟨nonempty, unsigned⟩
  | true => exact ⟨by simp, List.forall_mem_cons.mpr ⟨by decide, unsigned⟩⟩

/-- A number is written with digits, a point and a minus sign, or as a name. -/
theorem isNumeral_writeFloat (number : Float) : IsNumeral (writeFloat number) := by
  rw [writeFloat]
  cases Binary64.ofFloat number with
  | undefined => decide
  | infinite negative => cases negative <;> decide
  | finite value =>
      by_cases zero : value.significand = 0
      · simp only [if_pos zero]
        exact isNumeral_signed value.negative (by simp) (List.forall_mem_singleton.mpr (by decide))
      · simp only [if_neg zero]
        have digits : Nat.toDigits 10 (shortestDecimal value).digits ≠ [] := Nat.toDigits_ne_nil
        exact isNumeral_signed value.negative (withPoint_ne_nil _ (by simp [digits]))
          fun character => mem_write

/-- A written number is a word. -/
theorem isWord_writeFloat (number : Float) : Token.IsWord (writeFloat number) := by
  obtain ⟨nonempty, spelled⟩ := isNumeral_writeFloat number
  refine ⟨nonempty, fun character member => ?_⟩
  rcases spelled character member with isDigit | sign
  · exact Token.isPlain_of_comma_lt (Operator.comma_lt_of_isDigit isDigit)
  · have plain : signs.all (Token.IsPlain ·) = true := by decide
    exact of_decide_eq_true (List.all_eq_true.mp plain character sign)

end Number

end Retrieval
