import Std.Data.HashSet
import Retrieval.Text.Alphanumeric
import Retrieval.Text.Lowercase
import Retrieval.Text.Run

/-!
# From text to terms

A text is analyzed into the terms that an index knows: its runs of letters and digits, lowercased
character by character, without stopwords and without overlong words.
-/

namespace Retrieval

/-- The greatest length of a term in bytes. -/
def maximalTermLength : Nat := 128

/-- The stopwords of English texts. -/
def englishStopwords : List String :=
  ["a", "an", "and", "are", "as", "at", "be", "but", "by", "for", "if", "in", "into", "is", "it",
   "no", "not", "of", "on", "or", "such", "that", "the", "their", "then", "there", "these", "they",
   "this", "to", "was", "will", "with"]

/-- The rule by which texts become terms. -/
structure Analyzer where
  /-- The words that are no terms. -/
  stopwords : Std.HashSet String

namespace Analyzer

/-- The analyzer with the given stopwords, which may be written in any case. -/
def ofStopwords (words : List String) : Analyzer :=
  ⟨Std.HashSet.ofList (words.map Text.lowerText)⟩

/-- The analyzer with the English stopwords. -/
def english : Analyzer := ofStopwords englishStopwords

/-- The number of distinct stopwords. -/
def stopwordCount (analyzer : Analyzer) : Nat := analyzer.stopwords.size

/-- The word is a stopword as it stands. -/
def isStopword (analyzer : Analyzer) (word : String) : Bool := analyzer.stopwords.contains word

/-- The lowercased word is short enough for a term and no stopword. -/
def keeps (analyzer : Analyzer) (word : String) : Bool :=
  word.utf8ByteSize ≤ maximalTermLength && !analyzer.isStopword word

/-- The lowercase form of a word, character by character. -/
def normalize (word : List Char) : String :=
  String.ofList (word.flatMap Text.lowerCharacter)

/-- The terms of a text, in order. -/
def analyze (analyzer : Analyzer) (text : String) : List String :=
  ((Text.runs Text.isAlphanumeric text.toList).map normalize).filter analyzer.keeps

end Analyzer

end Retrieval
