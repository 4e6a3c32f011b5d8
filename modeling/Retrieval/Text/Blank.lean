import Retrieval.Text.CodeRange
import Retrieval.Text.Run

/-!
# Blanks, lines and columns

The characters of the Unicode property White_Space, and the ways of cutting a text that rest on
them and on single separators: trimming, columns, lines, and the cut at the first separator.
-/

namespace Retrieval.Text

/-- The ranges of the characters with the Unicode property White_Space. -/
def blankRanges : CodeRanges :=
  [(0x9, 0xD), (0x20, 0x20), (0x85, 0x85), (0xA0, 0xA0), (0x1680, 0x1680), (0x2000, 0x200A),
   (0x2028, 0x2029), (0x202F, 0x202F), (0x205F, 0x205F), (0x3000, 0x3000)]

/-- The character is a blank. -/
def isBlank (character : Char) : Bool :=
  blankRanges.contains character

/-- The text without the blanks at its two ends. -/
def trimCharacters (characters : List Char) : List Char :=
  ((characters.dropWhile isBlank).reverse.dropWhile isBlank).reverse

/-- The text without the blanks at its two ends. -/
def trim (text : String) : String :=
  String.ofList (trimCharacters text.toList)

/-- The text holds nothing but blanks. -/
def isBlankText (text : String) : Bool :=
  text.toList.all isBlank

/-- The columns of a line: its maximal runs without a blank. -/
def columns (line : String) : List String :=
  (runs (fun character => !isBlank character) line.toList).map String.ofList

/-- A line, given backwards, without the carriage return that belongs to its line feed. -/
def withoutReturn : List Char → List Char
  | '\r' :: line => line
  | line => line

/-- The lines that follow once `line`, given backwards, has been read. -/
def linesAfter : List Char → List Char → List (List Char)
  | [], [] => []
  | line, [] => [line.reverse]
  | line, character :: later =>
      if character = '\n' then (withoutReturn line).reverse :: linesAfter [] later
      else linesAfter (character :: line) later

/-- The lines of a text. A line ends with a line feed, which may follow a carriage return; the last
one may lack it. -/
def lines (text : String) : List String :=
  (linesAfter [] text.toList).map String.ofList

/-- The parts before and after the first separator. -/
def cutCharacters (separator : Char) : List Char → Option (List Char × List Char)
  | [] => none
  | character :: later =>
      if character = separator then some ([], later)
      else (cutCharacters separator later).map fun (before, after) => (character :: before, after)

theorem eq_of_cutCharacters {separator : Char} {characters before after : List Char}
    (cut : cutCharacters separator characters = some (before, after)) :
    characters = before ++ separator :: after := by
  induction characters generalizing before with
  | nil => simp [cutCharacters] at cut
  | cons character later ih =>
      unfold cutCharacters at cut
      split at cut
      · next same => simp_all
      · obtain ⟨⟨first, second⟩, found, split⟩ := Option.map_eq_some_iff.mp cut
        simp only [Prod.mk.injEq] at split
        obtain ⟨rfl, rfl⟩ := split
        simp [ih found]

/-- The parts of a text before and after the first separator. -/
def cut (separator : Char) (text : String) : Option (String × String) :=
  (cutCharacters separator text.toList).map fun (before, after) =>
    (String.ofList before, String.ofList after)

end Retrieval.Text
