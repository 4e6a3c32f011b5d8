import Retrieval.Query.Token

/-!
# Tokens of compound texts

Separators and closing parentheses cut a text into parts whose tokens are read independently, so that
the tokens of a text which is put together from words, blanks and parentheses are known from its parts.
-/

namespace Retrieval.Token

variable {run front back : List Char} {separator : Char} {word text : String}

/-- The character belongs to a word: it does not divide. -/
def IsPlain (character : Char) : Prop :=
  isSeparator character = false ∧ character ≠ ')'

/-- The text is a single word: it has characters, and all of them are plain. -/
def IsWord (text : String) : Prop :=
  text.toList ≠ [] ∧ ∀ character ∈ text.toList, IsPlain character

instance (character : Char) : Decidable (IsPlain character) := inferInstanceAs (Decidable (_ ∧ _))

-- The characters of the text are tried, not all characters.
instance (text : String) : Decidable (IsWord text) :=
  @instDecidableAnd _ _ inferInstance (List.decidableBAll _ _)

/-- The comma is the last of the characters that divide. -/
theorem isPlain_of_comma_lt {character : Char} (beyond : ',' < character) : IsPlain character := by
  have differs : ∀ {divider : Char}, divider ≤ ',' → character ≠ divider := by
    rintro divider early rfl
    exact absurd beyond (Char.not_lt.mpr early)
  refine ⟨?_, differs (by decide)⟩
  simp only [isSeparator, Bool.or_eq_false_iff, decide_eq_false_iff_not]
  exact ⟨⟨⟨⟨⟨differs (by decide), differs (by decide)⟩, differs (by decide)⟩, differs (by decide)⟩,
    differs (by decide)⟩, differs (by decide)⟩

theorem finish_append (run : List Char) (tokens : List Token) :
    finish run tokens = finish run [] ++ tokens := by
  rw [finish, finish]
  split <;> rfl

/-- A text that ends whatever word stands before it has its tokens to itself. -/
theorem scanAfter_append {tokens : List Token} (ends : ∀ run, scanAfter run back = finish run tokens) :
    scanAfter run (front ++ back) = scanAfter run front ++ tokens := by
  induction front generalizing run with
  | nil =>
      rw [List.nil_append, ends, finish_append]
      rfl
  | cons character front induction =>
      rw [List.cons_append, scanAfter, scanAfter, induction, induction]
      split
      · rw [finish_append, finish_append run (scanAfter [] front), List.append_assoc]
      · split
        · rw [finish_append, finish_append run (.close :: scanAfter [] front), List.append_assoc,
            List.cons_append]
        · rfl

theorem scanAfter_separator (separates : isSeparator separator = true) :
    scanAfter run (front ++ separator :: back) = scanAfter run front ++ scanAfter [] back := by
  apply scanAfter_append
  intro run
  rw [scanAfter, if_pos separates]

theorem scanAfter_close :
    scanAfter run (front ++ ')' :: back) = scanAfter run front ++ .close :: scanAfter [] back := by
  apply scanAfter_append
  intro run
  rw [scanAfter, if_neg (by decide), if_pos rfl]

theorem scanAfter_eq_finish
    (plain : ∀ character ∈ front, IsPlain character) :
    scanAfter run front = finish (front.reverse ++ run) [] := by
  induction front generalizing run with
  | nil => rfl
  | cons character front induction =>
      obtain ⟨noSeparator, noClose⟩ := plain character List.mem_cons_self
      rw [scanAfter, if_neg (by simp [noSeparator]), if_neg noClose,
        induction fun other member => plain other (List.mem_cons_of_mem _ member)]
      simp

theorem scan_word (isWord : IsWord word) : scan word = [.word word] := by
  rw [scan, scanAfter_eq_finish isWord.2, finish, if_neg (by simpa using isWord.1)]
  simp

theorem scan_spaced (front back : String) : scan (front ++ " " ++ back) = scan front ++ scan back := by
  have cut : (front ++ " " ++ back).toList = front.toList ++ ' ' :: back.toList := by simp
  rw [scan, cut, scanAfter_separator (by decide)]
  rfl

/-- A word with an argument in parentheses. -/
theorem scan_call (isWord : IsWord word) (text : String) :
    scan (word ++ "(" ++ text ++ ")") = .word word :: scan text ++ [.close] := by
  have cut : (word ++ "(" ++ text ++ ")").toList = word.toList ++ '(' :: (text.toList ++ [')']) := by
    simp
  rw [scan, cut, scanAfter_separator (by decide), scanAfter_close]
  change scan word ++ (scan text ++ [.close]) = _
  rw [scan_word isWord]
  rfl

theorem scan_intercalate (texts : List String) :
    scan (" ".intercalate texts) = texts.flatMap scan := by
  induction texts with
  | nil => rfl
  | cons text later induction =>
      cases later with
      | nil => simp
      | cons next later =>
          rw [String.intercalate_cons_cons, scan_spaced, induction]
          rfl

end Retrieval.Token
