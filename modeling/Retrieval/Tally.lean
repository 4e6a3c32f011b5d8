import Std.Data.HashMap
import Std.Data.HashSet

/-!
# Distinct words and their counts

The words of a text in the order of their first occurrence, and how often each one occurs.
-/

namespace Retrieval

/-- The words that are not in `seen`, each where it occurs first. -/
def firstOccurrencesBeyond (seen : Std.HashSet String) : List String → List String
  | [] => []
  | word :: later =>
      if seen.contains word then firstOccurrencesBeyond seen later
      else word :: firstOccurrencesBeyond (seen.insert word) later

/-- The distinct words in the order of their first occurrence. -/
def firstOccurrences (words : List String) : List String :=
  firstOccurrencesBeyond ∅ words

/-- How often each word occurs. -/
def tally (words : List String) : Std.HashMap String Nat :=
  words.foldl (fun counts word => counts.insert word (counts.getD word 0 + 1)) ∅

end Retrieval
