import Mathlib.Algebra.Order.BigOperators.Group.List
import Mathlib.Algebra.Order.Group.Nat
import Retrieval.Proofs.Posting.Choices

/-!
# Spans of positions

An unordered match compares the next positions of all operands. If they lie close enough together they
are a match, and all are passed; otherwise the leftmost is passed alone. A position that is passed alone
belongs to no span with what is left of the other operands, so as long as there is a span of unread
positions, one is found. The rounds are said here as a relation, `Spans`, in which any of several
leftmost operands may be the one that moves.
-/

namespace Retrieval

/-- Each row has a next position; they extend from `left` to `right`. -/
structure Fronts (rows : List (List Nat)) (heads : List Nat) (left right : Nat) : Prop where
  /-- The next positions of the rows. -/
  each : List.Forall₂ (fun positions head => positions.head? = some head) rows heads
  /-- The least of them. -/
  least : heads.min? = some left
  /-- The greatest of them. -/
  greatest : heads.max? = some right

/-- The ends of the matches that the rounds find in rows of positions. -/
inductive Spans (size : Nat) : List (List Nat) → List Nat → Prop
  /-- Some row has been read to its end, or there is none. -/
  | ended {rows : List (List Nat)} (exhausted : rows = [] ∨ [] ∈ rows) : Spans size rows []
  /-- The next positions lie close together, and not all on one place. -/
  | found {rows : List (List Nat)} {heads ends : List Nat} {left right : Nat}
      (fronts : Fronts rows heads left right) (apart : left < right) (near : right - left < size)
      (later : Spans size (rows.map List.tail) ends) : Spans size rows (right :: ends)
  /-- They do not, and one of the leftmost is passed. -/
  | passed {before after : List (List Nat)} {rest heads ends : List Nat} {left right : Nat}
      (fronts : Fronts (before ++ (left :: rest) :: after) heads left right)
      (wide : left = right ∨ size ≤ right - left)
      (later : Spans size (before ++ rest :: after) ends) :
      Spans size (before ++ (left :: rest) :: after) ends

variable {size left right position : Nat} {rows before after : List (List Nat)}
  {positions rest heads ends choice : List Nat}

namespace Fronts

variable (fronts : Fronts rows heads left right)

include fronts

theorem exists_eq_cons (member : positions ∈ rows) :
    ∃ head rest, positions = head :: rest ∧ left ≤ head ∧ head ≤ right := by
  obtain ⟨head, among, here⟩ := exists_of_mem_forall₂ fronts.each member
  obtain ⟨rest, rfl⟩ := List.head?_eq_some_iff.mp here
  exact ⟨head, rest, rfl, (List.min?_eq_some_iff.mp fronts.least).2 head among,
    (List.max?_eq_some_iff.mp fronts.greatest).2 head among⟩

theorem exists_left : ∃ rest, left :: rest ∈ rows := by
  obtain ⟨positions, member, here⟩ :=
    exists_of_mem_forall₂ fronts.each.flip (List.min?_eq_some_iff.mp fronts.least).1
  obtain ⟨rest, rfl⟩ := List.head?_eq_some_iff.mp here
  exact ⟨rest, member⟩

theorem left_le_right : left ≤ right := by
  obtain ⟨rest, member⟩ := fronts.exists_left
  obtain ⟨head, _, same, _, high⟩ := fronts.exists_eq_cons member
  exact (List.cons.inj same).1 ▸ high

theorem exists_right : ∃ rest, right :: rest ∈ rows := by
  obtain ⟨positions, member, here⟩ :=
    exists_of_mem_forall₂ fronts.each.flip (List.max?_eq_some_iff.mp fronts.greatest).1
  obtain ⟨rest, rfl⟩ := List.head?_eq_some_iff.mp here
  exact ⟨rest, member⟩

theorem isChoice : IsChoice rows heads :=
  fronts.each.imp fun _ _ here => List.mem_of_mem_head? here

/-- Passing all next positions leaves fewer. -/
theorem length_tails_lt : (rows.map List.tail).flatten.length < rows.flatten.length := by
  rw [List.length_flatten, List.length_flatten, List.map_map]
  obtain ⟨rest, member⟩ := fronts.exists_left
  exact List.sum_lt_sum _ _ (fun positions _ => by simp) ⟨_, member, by simp⟩

end Fronts

/-! ## The rounds suffice -/

theorem mapM_head? (rows : List (List Nat)) :
    (∃ heads, rows.mapM List.head? = some heads ∧
        List.Forall₂ (fun positions head => positions.head? = some head) rows heads) ∨
      rows.mapM List.head? = none ∧ [] ∈ rows := by
  induction rows with
  | nil => exact .inl ⟨[], rfl, .nil⟩
  | cons positions rows induction =>
      rw [List.mapM_cons]
      cases positions with
      | nil => exact .inr ⟨rfl, List.mem_cons_self⟩
      | cons head rest =>
          rcases induction with ⟨heads, found, each⟩ | ⟨ended, exhausted⟩
          · exact .inl ⟨head :: heads, by simp [found], .cons rfl each⟩
          · exact .inr ⟨by simp [ended], List.mem_cons_of_mem _ exhausted⟩

/-- The row whose next position comes first among the next positions is the one that changes. -/
theorem modify_idxOf (each : List.Forall₂ (fun positions head => positions.head? = some head) rows heads)
    (member : left ∈ heads) :
    ∃ before rest after, rows = before ++ (left :: rest) :: after ∧
      rows.modify (heads.idxOf left) List.tail = before ++ rest :: after := by
  induction each with
  | nil => simp at member
  | @cons positions head rows heads here _ induction =>
      obtain ⟨rest, rfl⟩ := List.head?_eq_some_iff.mp here
      by_cases same : head = left
      · subst same
        exact ⟨[], rest, rows, rfl, by simp⟩
      · have among := (List.mem_cons.mp member).resolve_left (Ne.symm same)
        obtain ⟨before, other, after, rfl, changed⟩ := induction among
        refine ⟨(head :: rest) :: before, other, after, rfl, ?_⟩
        rw [List.idxOf_cons_ne _ same, List.modify_succ_cons, changed, List.cons_append]

theorem spans_spanEnds (rounds : Nat) (enough : rows.flatten.length < rounds) :
    Spans size rows (spanEnds size rounds rows) := by
  induction rounds generalizing rows with
  | zero => exact absurd enough (Nat.not_lt_zero _)
  | succ rounds induction =>
      rw [spanEnds]
      rcases mapM_head? rows with ⟨heads, found, each⟩ | ⟨ended, exhausted⟩
      · rw [found]
        dsimp only
        split
        · next left right least greatest =>
            have fronts : Fronts rows heads left right := ⟨each, least, greatest⟩
            simp only [Bool.and_eq_true, decide_eq_true_eq]
            split
            · next close =>
                exact .found fronts close.1 close.2
                  (induction (Nat.lt_of_lt_of_le fronts.length_tails_lt (Nat.le_of_lt_succ enough)))
            · next wide =>
                obtain ⟨before, rest, after, rfl, changed⟩ :=
                  modify_idxOf each (List.min?_eq_some_iff.mp least).1
                rw [changed]
                have ordered := fronts.left_le_right
                refine .passed fronts (by omega) (induction ?_)
                simp only [List.flatten_append, List.flatten_cons, List.length_append,
                  List.length_cons] at enough ⊢
                omega
        · next missing =>
            cases heads with
            | nil => exact .ended (.inl (List.forall₂_nil_right_iff.mp each))
            | cons head heads => exact absurd List.max?_cons' (missing _ _ List.min?_cons')
      · rw [ended]
        exact .ended (.inr exhausted)

/-- The rounds that an unordered match makes of its positions are as many as it needs. -/
theorem spans_windowPositions (size : Nat) (rows : List (List Nat)) :
    Spans size rows (windowPositions size rows) :=
  spans_spanEnds _ (Nat.lt_succ_self _)

/-! ## What the rounds find -/

/-- The choice has one position of each row, in a span of fewer than `size` positions. -/
structure IsSpan (size : Nat) (rows : List (List Nat)) (choice : List Nat) : Prop where
  /-- There is a position of each row. -/
  isChoice : IsChoice rows choice
  /-- The positions lie close together. -/
  near : ∃ left right, choice.min? = some left ∧ choice.max? = some right ∧ right - left < size

namespace IsSpan

theorem mono {others : List (List Nat)} (isSpan : IsSpan size rows choice)
    (within : List.Forall₂ (· ⊆ ·) rows others) : IsSpan size others choice :=
  ⟨isSpan.isChoice.mono within, isSpan.near⟩

/-- No two positions of the span lie farther apart than its size. -/
theorem sub_lt {next : Nat} (isSpan : IsSpan size rows choice) (member : position ∈ choice)
    (memberNext : next ∈ choice) : next - position < size := by
  obtain ⟨left, right, least, greatest, near⟩ := isSpan.near
  have before : left ≤ position := (List.min?_eq_some_iff.mp least).2 position member
  have behind : next ≤ right := (List.max?_eq_some_iff.mp greatest).2 next memberNext
  omega

end IsSpan

theorem Fronts.isSpan (fronts : Fronts rows heads left right) (near : right - left < size) :
    IsSpan size rows heads :=
  ⟨fronts.isChoice, left, right, fronts.least, fronts.greatest, near⟩

theorem tails_within (rows : List (List Nat)) :
    List.Forall₂ (· ⊆ ·) (rows.map List.tail) rows :=
  List.forall₂_map_left_iff.mpr
    (List.forall₂_same.mpr fun positions _ => List.tail_subset positions)

theorem passed_within (before after : List (List Nat)) (head : Nat) (rest : List Nat) :
    List.Forall₂ (· ⊆ ·) (before ++ rest :: after) (before ++ (head :: rest) :: after) :=
  List.rel_append (within_refl before) (.cons (List.subset_cons_self head rest) (within_refl after))

theorem sorted_passed {relation : Nat → Nat → Prop} {head : Nat}
    (sorted : ∀ positions ∈ before ++ (head :: rest) :: after, positions.Pairwise relation) :
    ∀ positions ∈ before ++ rest :: after, positions.Pairwise relation := by
  simp only [List.forall_mem_append, List.forall_mem_cons] at sorted ⊢
  exact ⟨sorted.1, (List.pairwise_cons.mp sorted.2.1).2, sorted.2.2⟩

theorem sorted_tails {relation : Nat → Nat → Prop}
    (sorted : ∀ positions ∈ rows, positions.Pairwise relation) :
    ∀ positions ∈ rows.map List.tail, positions.Pairwise relation :=
  List.forall_mem_map.mpr fun positions member =>
    (sorted positions member).sublist (List.tail_sublist positions)

/-- Each position that is written is the greatest of a span, and in all rows each of these spans lies
behind the one before it. -/
theorem Spans.exists_spans (spans : Spans size rows ends)
    (sorted : ∀ positions ∈ rows, positions.Pairwise (· < ·)) :
    ∃ choices : List (List Nat),
      List.Forall₂ (fun choice position => choice.max? = some position) choices ends ∧
        (∀ choice ∈ choices, IsSpan size rows choice) ∧ choices.Pairwise LiesBefore := by
  induction spans with
  | ended => exact ⟨[], .nil, by simp, .nil⟩
  | @found rows heads ends left right fronts apart near _ induction =>
      obtain ⟨choices, endOn, areSpans, ordered⟩ := induction (sorted_tails sorted)
      refine ⟨heads :: choices, .cons fronts.greatest endOn, ?_, ?_⟩
      · exact List.forall_mem_cons.mpr ⟨fronts.isSpan near, fun choice member =>
          (areSpans choice member).mono (tails_within rows)⟩
      · exact List.pairwise_cons.mpr ⟨fun choice member =>
          liesBefore_of_tails sorted fronts.each (areSpans choice member).isChoice, ordered⟩
  | @passed before after rest heads ends left right fronts wide _ induction =>
      obtain ⟨choices, endOn, areSpans, ordered⟩ := induction (sorted_passed sorted)
      exact ⟨choices, endOn, fun choice member =>
        (areSpans choice member).mono (passed_within before after left rest), ordered⟩

/-- Where the next positions lie too far apart, a span has none of the leftmost: it would have to have a
position of the row that is farthest ahead as well. -/
theorem IsSpan.passed (isSpan : IsSpan size (before ++ (left :: rest) :: after) choice)
    (sorted : ∀ positions ∈ before ++ (left :: rest) :: after, positions.Pairwise (· ≤ ·))
    (fronts : Fronts (before ++ (left :: rest) :: after) heads left right)
    (wide : size ≤ right - left) : IsSpan size (before ++ rest :: after) choice := by
  obtain ⟨leading, others, rfl, readBefore, readOthers⟩ :=
    exists_of_forall₂_append isSpan.isChoice.flip
  obtain ⟨position, later, member, readAfter, rfl⟩ := List.forall₂_cons_right_iff.mp readOthers
  have differs : position ≠ left := by
    rintro rfl
    obtain ⟨rightRest, rightMember⟩ := fronts.exists_right
    obtain ⟨other, among, chosen⟩ := exists_of_mem_forall₂ isSpan.isChoice rightMember
    have beyond : right ≤ other := (sorted _ rightMember).rel_head chosen
    have close := isSpan.sub_lt (List.mem_append_right leading List.mem_cons_self) among
    omega
  have kept : position ∈ rest := (List.mem_cons.mp member).resolve_left differs
  exact ⟨(List.rel_append readBefore (.cons kept readAfter)).flip, isSpan.near⟩

/-- If no position belongs to all rows and there is a span in them, then one is found. -/
theorem Spans.ne_nil (spans : Spans size rows ends)
    (sorted : ∀ positions ∈ rows, positions.Pairwise (· ≤ ·))
    (unshared : ∀ position, ∃ positions ∈ rows, position ∉ positions)
    (isSpan : IsSpan size rows choice) : ends ≠ [] := by
  induction spans with
  | ended exhausted =>
      rcases exhausted with rfl | exhausted
      · obtain ⟨positions, member, -⟩ := unshared 0
        exact absurd member List.not_mem_nil
      · obtain ⟨position, -, chosen⟩ := exists_of_mem_forall₂ isSpan.isChoice exhausted
        exact absurd chosen List.not_mem_nil
  | found => exact List.cons_ne_nil _ _
  | @passed before after rest heads ends left right fronts wide _ induction =>
      have far : size ≤ right - left := by
        refine wide.resolve_left fun same => ?_
        obtain ⟨positions, member, absent⟩ := unshared left
        obtain ⟨head, others, rfl, low, high⟩ := fronts.exists_eq_cons member
        exact absent (Nat.le_antisymm low (same ▸ high) ▸ List.mem_cons_self)
      refine induction (sorted_passed sorted) (fun position => ?_) (isSpan.passed sorted fronts far)
      obtain ⟨positions, member, absent⟩ := unshared position
      obtain ⟨other, among, contained⟩ :=
        exists_of_mem_forall₂ (passed_within before after left rest).flip member
      exact ⟨other, among, fun present => absent (contained present)⟩

/-! ## The list of an unordered match -/

namespace Cursor

open InvertedList

variable {ω : Type} {first second : InvertedList} {others : List InvertedList}
  {cursors : List (Cursor ω)}

/-- An unordered match of two or more sorted lists that share no position in a document. It has exactly
the documents of all lists in which there is a span of their positions. The positions that it writes for
a document are the greatest ones of spans of which each lies behind the one before it in all lists, so
they ascend, and no list has fewer occurrences there. -/
theorem materialize_window_exact (field : Field) (size : Nat)
    (sorted : ∀ list ∈ first :: second :: others, list.Sorted)
    (apart : ∀ document, (rowsAt document (first :: second :: others)).Pairwise List.Disjoint)
    (read : List.Forall₂ (fun list cursor => cursor.reader? = some (.ofList list))
      (first :: second :: others) cursors) :
    let window := (materialize field (.window size) cursors).1
    (∀ document, document ∈ window.documents ↔
      (∀ list ∈ first :: second :: others, document ∈ list.documents) ∧
        ∃ choice, IsSpan size (rowsAt document (first :: second :: others)) choice) ∧
      ∀ posting ∈ window.postings,
        (∃ choices : List (List Nat),
          List.Forall₂ (fun choice position => choice.max? = some position) choices
              posting.positions ∧
            (∀ choice ∈ choices,
              IsSpan size (rowsAt posting.document (first :: second :: others)) choice) ∧
            choices.Pairwise LiesBefore) ∧
          posting.positions.Pairwise (· < ·) ∧
          ∀ list ∈ first :: second :: others,
            posting.frequency ≤ list.frequencyAt posting.document := by
  intro window
  have combines : window.Combines (windowPositions size) (first :: second :: others) :=
    combines_materialize_window field size (fun list member => (sorted list member).ascending) read
  have spans (document : DocumentId) :=
    spans_windowPositions size (rowsAt document (first :: second :: others))
  have ascend (document : DocumentId) :=
    rowsAt_pairwise (fun list member => (sorted list member).positions) document
  refine ⟨fun document => ?_, fun posting member => ?_⟩
  · rw [combines.mem_documents_iff]
    refine and_congr_right fun _ => ⟨fun nonempty => ?_, fun ⟨choice, isSpan⟩ => ?_⟩
    · obtain ⟨choices, endOn, areSpans, -⟩ := (spans document).exists_spans (ascend document)
      obtain ⟨position, among⟩ := List.exists_mem_of_ne_nil _ nonempty
      obtain ⟨choice, chosen, -⟩ := exists_of_mem_forall₂ endOn.flip among
      exact ⟨choice, areSpans choice chosen⟩
    · refine (spans document).ne_nil
        (fun positions among => (ascend document positions among).imp Nat.le_of_lt)
        (fun position => ?_) isSpan
      have disjoint : List.Disjoint (first.positionsAt document) (second.positionsAt document) :=
        List.rel_of_pairwise_cons (apart document) List.mem_cons_self
      by_cases inFirst : position ∈ first.positionsAt document
      · exact ⟨_, List.mem_cons_of_mem _ List.mem_cons_self, disjoint inFirst⟩
      · exact ⟨_, List.mem_cons_self, inFirst⟩
  · obtain ⟨choices, endOn, areSpans, ordered⟩ :=
      (spans posting.document).exists_spans (ascend posting.document)
    rw [← combines.positions_eq member] at endOn
    refine ⟨⟨choices, endOn, areSpans, ordered⟩,
      pairwise_of_liesBefore LiesBefore.max?_lt endOn ordered, fun list among => ?_⟩
    rw [combines.frequency_eq member, ← endOn.length_eq]
    exact length_le_frequencyAt (sorted list among) among
      (fun choice chosen => (areSpans choice chosen).isChoice) ordered

/-- The next positions of three words are a span that is too long by one, but there is a shorter span
behind them. -/
theorem materialize_window_exact_three :
    let list (positions : List Nat) := InvertedList.ofPostings .body [.ofPositions 4 positions]
    let cursor (positions : List Nat) : Cursor Nat :=
      .term "word" .body (some (.ofList (list positions)))
    4 ∈ (materialize .body (.window 4)
      [cursor [5, 21], cursor [1, 7], cursor [4, 11]]).1.documents := by
  intro list cursor
  let lists := [list [5, 21], list [1, 7], list [4, 11]]
  have sorted : ∀ list ∈ lists, list.Sorted := by simp [lists, list, sorted_singleton]
  have apart (document : DocumentId) : (rowsAt document lists).Pairwise List.Disjoint := by
    by_cases same : document = 4
    · subst same
      have present (positions : List Nat) : (list positions).positionsAt 4 = positions := rfl
      simp [lists, rowsAt, present, List.Disjoint]
    · have absent (positions : List Nat) : (list positions).positionsAt document = [] :=
        positionsAt_eq_nil (by simpa [list, InvertedList.documents, Posting.ofPositions] using same)
      simp [lists, rowsAt, absent]
  have read : List.Forall₂ (fun list cursor => cursor.reader? = some (.ofList list)) lists
      [cursor [5, 21], cursor [1, 7], cursor [4, 11]] := .cons rfl (.cons rfl (.cons rfl .nil))
  have written := materialize_window_exact .body 4 sorted apart read
  refine (written.1 4).mpr ⟨by decide, [5, 7, 4], ?_, 4, 7, by decide⟩
  exact .cons (by decide) (.cons (by decide) (.cons (by decide) .nil))

end Cursor

end Retrieval
