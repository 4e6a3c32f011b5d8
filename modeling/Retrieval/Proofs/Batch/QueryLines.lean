import Retrieval.Batch
import Retrieval.Proofs.Evaluation.Traversal
import Retrieval.Proofs.Query.Words
import Retrieval.Proofs.Text.Columns
import Retrieval.Proofs.Text.Trimming

/-!
# Query files

A query that is read from a query file is plain: its number and its text are trimmed and hold no line feed,
and the number holds no colon. Plain queries, each written as a line, are read back as they are.
-/

namespace Retrieval.QueryLine

/-- The query has a number and a text that a line of a query file can hold. -/
structure IsPlain (line : QueryLine) : Prop where
  number_trimmed : Text.trim line.number = line.number
  text_trimmed : Text.trim line.text = line.text
  colon_notMem : ':' ∉ line.number.toList
  feed_notMem_number : '\n' ∉ line.number.toList
  feed_notMem_text : '\n' ∉ line.text.toList

variable {line : QueryLine} {lines : List QueryLine} {text : String}

/-! ## Reading -/

theorem isPlain_of_ofLine (noFeed : '\n' ∉ text.toList) (read : ofLine text = .ok line) :
    line.IsPlain := by
  rw [ofLine] at read
  split at read
  · next before after cut =>
      obtain rfl := Except.ok.inj read
      obtain ⟨rfl, absent⟩ := Query.cut_eq_some_iff.mp cut
      simp only [String.toList_append, List.mem_append, not_or] at noFeed
      exact ⟨Text.trim_trim before, Text.trim_trim after,
        fun colon => absent (Text.trim_subset before colon),
        fun feed => noFeed.1.1 (Text.trim_subset before feed),
        fun feed => noFeed.2 (Text.trim_subset after feed)⟩
  · cases read

/-- The queries of a query file are plain. -/
theorem isPlain_of_ofText (read : ofText text = .ok lines) (member : line ∈ lines) : line.IsPlain := by
  obtain ⟨original, among, readLine⟩ :=
    exists_of_mem_forall₂ (List.Forall₂.flip (mapM_eq_ok_iff.mp read)) member
  exact isPlain_of_ofLine (Text.feed_notMem_of_mem_lines (List.mem_of_mem_filter among)) readLine

/-! ## Writing -/

/-- The line of a query without its line feed. -/
def spelling (line : QueryLine) : String :=
  line.number ++ ": " ++ line.text

theorem write_eq (line : QueryLine) : line.write = line.spelling ++ "\n" := rfl

theorem toList_spelling (line : QueryLine) :
    line.spelling.toList = line.number.toList ++ ':' :: ' ' :: line.text.toList := by
  simp [spelling]

theorem isBlankText_spelling (line : QueryLine) : Text.isBlankText line.spelling = false := by
  rw [Text.isBlankText, List.all_eq_false]
  exact ⟨':', by simp [toList_spelling], by decide⟩

namespace IsPlain

theorem feed_notMem_spelling (plain : line.IsPlain) : '\n' ∉ line.spelling.toList := by
  rw [toList_spelling]
  simp [plain.feed_notMem_number, plain.feed_notMem_text]

/-- The line ends with the blank behind the colon, or with what is not a blank. -/
theorem dropReturn_spelling (plain : line.IsPlain) :
    Text.dropReturn line.spelling = line.spelling := by
  have noReturn : line.spelling.toList.reverse.head? ≠ some '\r' := by
    rw [List.head?_reverse, toList_spelling]
    intro returns
    by_cases empty : line.text.toList = []
    · simp [empty] at returns
    · have last : line.text.toList.getLast empty = '\r' := by
        simpa [List.getLast?_append, List.getLast?_cons, List.getLast?_eq_getLast_of_ne_nil empty]
          using returns
      have kept := (Text.trim_eq_self_iff.mp plain.text_trimmed).back empty
      rw [last] at kept
      exact absurd kept (by decide)
  rw [Text.dropReturn, Text.withoutReturn_of_ne noReturn, List.reverse_reverse, String.ofList_toList]

theorem ofLine_spelling (plain : line.IsPlain) : ofLine line.spelling = .ok line := by
  have cut : Text.cut ':' line.spelling = some (line.number, " " ++ line.text) := by
    refine Query.cut_eq_some_iff.mpr ⟨?_, plain.colon_notMem⟩
    rw [← String.toList_inj, toList_spelling]
    simp
  rw [ofLine, cut]
  simp only [Text.trim_blank_append, plain.number_trimmed, plain.text_trimmed]

end IsPlain

/-- Plain queries that are written line by line are read back. -/
theorem ofText_write (plain : ∀ line ∈ lines, line.IsPlain) :
    ofText (String.join (lines.map write)) = .ok lines := by
  have written : lines.map write = (lines.map spelling).map (· ++ "\n") := by
    rw [List.map_map]
    exact List.map_congr_left fun line _ => write_eq line
  have cut : Text.lines (String.join (lines.map write)) = lines.map spelling := by
    rw [written, Text.lines_join (List.forall_mem_map.mpr fun line member =>
      (plain line member).feed_notMem_spelling), List.map_map]
    exact List.map_congr_left fun line member => (plain line member).dropReturn_spelling
  rw [ofText, cut, List.filter_eq_self.mpr (List.forall_mem_map.mpr fun line _ => by
    rw [isBlankText_spelling, Bool.not_false]), mapM_eq_ok_iff, List.forall₂_map_left_iff,
    List.forall₂_same]
  exact fun line member => (plain line member).ofLine_spelling

end Retrieval.QueryLine
