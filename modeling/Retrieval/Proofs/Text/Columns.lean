import Retrieval.Proofs.Text.Runs
import Retrieval.Text.Blank

/-!
# Cutting into lines and columns

A text that is written column by column, or line by line, is cut where it was put together. A column has
characters and no blank among them; a line has no line feed, and it is read without a carriage return at
its end.
-/

namespace Retrieval.Text

variable {front back run : List Char}

/-! ## Columns -/

/-- The text stands in a column of its own: it has characters, and none of them is a blank. -/
def IsColumn (text : String) : Prop :=
  text.toList ≠ [] ∧ ∀ character ∈ text.toList, isBlank character = false

-- The characters of the text are tried, not all characters.
instance (text : String) : Decidable (IsColumn text) :=
  @instDecidableAnd _ _ inferInstance (List.decidableBAll _ _)

theorem columns_cons {column : String} (isColumn : IsColumn column) (later : String) :
    columns (column ++ "\t" ++ later) = column :: columns later := by
  have kept : ∀ character ∈ column.toList, (!isBlank character) = true := by
    simpa using isColumn.2
  have split : (column ++ "\t" ++ later).toList = column.toList ++ '\t' :: later.toList := by simp
  rw [columns, split, runs_append_cons (by decide), runs_eq_singleton isColumn.1 kept,
    List.singleton_append, List.map_cons, String.ofList_toList]
  rfl

/-! ## Lines -/

/-- A line without the carriage return at its end. -/
def dropReturn (line : String) : String :=
  String.ofList (withoutReturn line.toList.reverse).reverse

theorem linesAfter_append (noFeed : '\n' ∉ front) :
    linesAfter run (front ++ back) = linesAfter (front.reverse ++ run) back := by
  induction front generalizing run with
  | nil => rfl
  | cons character front induction =>
      obtain ⟨differs, later⟩ : '\n' ≠ character ∧ '\n' ∉ front := by simpa using noFeed
      have one : linesAfter run (character :: (front ++ back)) =
          linesAfter (character :: run) (front ++ back) := by
        cases run <;> simp [linesAfter, differs.symm]
      rw [List.cons_append, one, induction later]
      simp

theorem lines_cons {line : String} (noFeed : '\n' ∉ line.toList) (later : String) :
    lines (line ++ "\n" ++ later) = dropReturn line :: lines later := by
  have split : (line ++ "\n" ++ later).toList = line.toList ++ '\n' :: later.toList := by simp
  have feed : linesAfter line.toList.reverse ('\n' :: later.toList) =
      (withoutReturn line.toList.reverse).reverse :: linesAfter [] later.toList := by
    rw [linesAfter.eq_def]
    cases line.toList.reverse <;> simp
  rw [lines, split, linesAfter_append noFeed, List.append_nil, feed]
  rfl

/-- Texts without line feeds, each written as a line, are read back, but for carriage returns. -/
theorem lines_join {texts : List String} (noFeed : ∀ text ∈ texts, '\n' ∉ text.toList) :
    lines (String.join (texts.map (· ++ "\n"))) = texts.map dropReturn := by
  induction texts with
  | nil => rfl
  | cons text texts induction =>
      obtain ⟨here, later⟩ := List.forall_mem_cons.mp noFeed
      rw [List.map_cons, String.join_cons, lines_cons here, induction later, List.map_cons]

theorem withoutReturn_of_ne {line : List Char} (differs : line.head? ≠ some '\r') :
    withoutReturn line = line := by
  unfold withoutReturn
  split
  · simp at differs
  · rfl

/-- Only what stands in the last column can lose a carriage return. -/
theorem dropReturn_append (before last : String) :
    dropReturn (before ++ "\t" ++ last) = before ++ "\t" ++ dropReturn last := by
  have split : (before ++ "\t" ++ last).toList.reverse =
      last.toList.reverse ++ '\t' :: before.toList.reverse := by simp
  rw [dropReturn, dropReturn, split, ← String.toList_inj]
  by_cases returns : last.toList.reverse.head? = some '\r'
  · obtain ⟨earlier, backwards⟩ := List.head?_eq_some_iff.mp returns
    rw [backwards]
    simp [withoutReturn]
  · have differs : (last.toList.reverse ++ '\t' :: before.toList.reverse).head? ≠ some '\r' := by
      cases backwards : last.toList.reverse with
      | nil => simp
      | cons character earlier => simpa [backwards] using returns
    rw [withoutReturn_of_ne differs, withoutReturn_of_ne returns]
    simp

theorem feed_notMem_of_mem_linesAfter {line : List Char} (noFeed : '\n' ∉ run)
    (member : line ∈ linesAfter run back) : '\n' ∉ line := by
  induction back generalizing run with
  | nil =>
      cases run with
      | nil => simp [linesAfter] at member
      | cons character run =>
          obtain rfl : line = (character :: run).reverse := by simpa [linesAfter] using member
          rwa [List.mem_reverse]
  | cons character later induction =>
      have returned : '\n' ∉ (withoutReturn run).reverse := by
        rw [List.mem_reverse]
        unfold withoutReturn
        split
        · exact fun inside => noFeed (List.mem_cons_of_mem _ inside)
        · exact noFeed
      have one : linesAfter run (character :: later) =
          if character = '\n' then (withoutReturn run).reverse :: linesAfter [] later
          else linesAfter (character :: run) later := by
        cases run <;> rfl
      rw [one] at member
      split at member
      · rcases List.mem_cons.mp member with rfl | among
        · exact returned
        · exact induction (by simp) among
      · next differs => exact induction (by simpa [Ne.symm differs] using noFeed) member

theorem feed_notMem_of_mem_lines {text line : String} (member : line ∈ lines text) :
    '\n' ∉ line.toList := by
  obtain ⟨characters, among, rfl⟩ := List.mem_map.mp member
  rw [String.toList_ofList]
  exact feed_notMem_of_mem_linesAfter List.not_mem_nil among

/-- A line of columns, with whatever stands behind them. -/
def line (columns : List String) (last : String) : String :=
  columns.foldr (fun column later => column ++ "\t" ++ later) last

theorem columns_line {front : List String} (areColumns : ∀ column ∈ front, IsColumn column)
    (last : String) : columns (line front last) = front ++ columns last := by
  induction front with
  | nil => rfl
  | cons column front induction =>
      obtain ⟨here, later⟩ := List.forall_mem_cons.mp areColumns
      rw [line, List.foldr_cons, ← line, columns_cons here, induction later, List.cons_append]

theorem dropReturn_line (front : List String) (last : String) :
    dropReturn (line front last) = line front (dropReturn last) := by
  induction front with
  | nil => rfl
  | cons column front induction =>
      rw [line, List.foldr_cons, ← line, dropReturn_append, induction]
      rfl

theorem IsColumn.feed_notMem {text : String} (isColumn : IsColumn text) : '\n' ∉ text.toList :=
  fun member => absurd (isColumn.2 '\n' member) (by decide)

theorem feed_notMem_line {front : List String} {last : String}
    (areColumns : ∀ column ∈ front, IsColumn column) (noFeed : '\n' ∉ last.toList) :
    '\n' ∉ (line front last).toList := by
  induction front with
  | nil => exact noFeed
  | cons column front induction =>
      obtain ⟨here, later⟩ := List.forall_mem_cons.mp areColumns
      rw [line, List.foldr_cons, ← line]
      simpa using ⟨here.feed_notMem, induction later⟩

end Retrieval.Text
