/-!
# Runs of characters

A text is cut into words by keeping its maximal runs of characters of one class. All else separates
the runs and is dropped.
-/

namespace Retrieval.Text

/-- The maximal runs of characters that satisfy `keep`, after `run`, given backwards, has been
read. -/
def runsAfter (keep : Char → Bool) : List Char → List Char → List (List Char)
  | [], [] => []
  | run, [] => [run.reverse]
  | run, character :: later =>
      if keep character then runsAfter keep (character :: run) later
      else match run with
        | [] => runsAfter keep [] later
        | _ => run.reverse :: runsAfter keep [] later

/-- The maximal runs of characters that satisfy `keep`, in order. -/
def runs (keep : Char → Bool) (characters : List Char) : List (List Char) :=
  runsAfter keep [] characters

end Retrieval.Text
