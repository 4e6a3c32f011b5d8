import Mathlib.Data.List.TakeWhile
import Mathlib.Order.Lattice.Nat
import Retrieval.Proofs.Posting.Positions

/-!
# Ordered chains of positions

An ordered match takes one position of each operand, each behind the one before it and no farther than
the distance. Each position that is written ends such a chain. A document is written if and only if all
operands have it and some position of the first one begins the chain in which every operand gives its
next position: until a first chain is found, all attempts start from what the operands have behind
their anchor, whatever the attempts before them have passed.
-/

namespace Retrieval

/-- A position lies behind another one and no farther than the distance. -/
def IsStep (distance before after : Nat) : Prop :=
  before < after ∧ after - before ≤ distance

instance (distance before after : Nat) : Decidable (IsStep distance before after) :=
  inferInstanceAs (Decidable (_ ∧ _))

/-- From a position on, each operand gives the least of its positions behind the one before, and all
of them are steps. -/
inductive Succeeds (distance : Nat) : Nat → List (List Nat) → Prop
  /-- All operands have given their position. -/
  | nil {last : Nat} : Succeeds distance last []
  /-- The next operand gives its next position. -/
  | cons {last position : Nat} {positions : List Nat} {later : List (List Nat)}
      (next : IsLeast {found | found ∈ positions ∧ last < found} position)
      (near : position - last ≤ distance) (continues : Succeeds distance position later) :
      Succeeds distance last (positions :: later)

variable {distance last later ending anchor position : Nat} {positions anchors : List Nat}
  {rows : List (List Nat)} {operand : Occurrences} {operands moved : List Occurrences}

/-- With a single operand to follow, any of its positions within the distance will do. -/
theorem succeeds_singleton_iff :
    Succeeds distance last [positions] ↔ ∃ position ∈ positions, IsStep distance last position := by
  constructor
  · intro succeeds
    cases succeeds with
    | cons next near => exact ⟨_, next.1.1, next.1.2, near⟩
  · rintro ⟨position, member, behind, near⟩
    let found : Set Nat := {found | found ∈ positions ∧ last < found}
    have isLeast : IsLeast found (sInf found) :=
      ⟨Nat.sInf_mem ⟨position, member, behind⟩, fun _ inside => Nat.sInf_le inside⟩
    have before : sInf found ≤ position := isLeast.2 ⟨member, behind⟩
    exact .cons isLeast (by omega) .nil

/-! ## Passing positions -/

theorem mem_of_dropWhile {rest : List Nat} (passed : positions.dropWhile (· ≤ last) = position :: rest) :
    position ∈ positions ∧ last < position := by
  constructor
  · exact (List.dropWhile_suffix _).subset (passed ▸ List.mem_cons_self)
  · have beyond := List.head?_dropWhile_not (· ≤ last) positions
    simpa [passed] using beyond

/-- The first of the sorted positions behind a given one is the least of them. -/
theorem isLeast_of_dropWhile {rest : List Nat} (sorted : positions.Pairwise (· ≤ ·))
    (passed : positions.dropWhile (· ≤ last) = position :: rest) :
    IsLeast {found | found ∈ positions ∧ last < found} position := by
  refine ⟨mem_of_dropWhile passed, fun other ⟨member, behind⟩ => ?_⟩
  have kept : other ∈ position :: rest := by
    rw [← List.takeWhile_append_dropWhile (p := (· ≤ last)) (l := positions), List.mem_append,
      passed] at member
    refine member.resolve_left fun before => ?_
    have := List.mem_takeWhile_imp before
    simp only [decide_eq_true_eq] at this
    omega
  have ordered : (position :: rest).Pairwise (· ≤ ·) :=
    passed ▸ sorted.sublist (List.dropWhile_suffix _).sublist
  exact ordered.rel_head kept

/-- Passing the positions up to one after those up to an earlier one. -/
theorem dropWhile_dropWhile_le (ordered : last ≤ later) :
    (positions.dropWhile (· ≤ last)).dropWhile (· ≤ later) = positions.dropWhile (· ≤ later) := by
  induction positions with
  | nil => rfl
  | cons position positions induction =>
      by_cases before : position ≤ last
      · rw [List.dropWhile_cons_of_pos (by simpa using before), induction,
          List.dropWhile_cons_of_pos (by simpa using before.trans ordered)]
      · rw [List.dropWhile_cons_of_neg (by simpa using before)]

namespace Occurrences

/-- The operand has the given positions, and some of them are unread. -/
def Reads (positions : List Nat) (operand : Occurrences) : Prop :=
  operand.all = positions ∧ operand.unread ⊆ positions

namespace Reads

theorem ofPositions (positions : List Nat) : (Occurrences.ofPositions positions).Reads positions :=
  ⟨rfl, List.Subset.refl _⟩

variable (reads : operand.Reads positions)

include reads

theorem skipTo (position : Nat) : (operand.skipTo position).Reads positions :=
  ⟨reads.1, fun _ unread => reads.2 ((List.dropWhile_suffix _).subset unread)⟩

theorem next : operand.next.Reads positions :=
  ⟨reads.1, fun _ unread => reads.2 (List.mem_of_mem_tail unread)⟩

theorem restart (position : Nat) : (operand.restart position).Reads positions :=
  reads.1 ▸ (ofPositions operand.all).skipTo position

end Reads

/-- The operand has passed no position behind the given one. -/
def StandsBefore (last : Nat) (positions : List Nat) (operand : Occurrences) : Prop :=
  operand.all = positions ∧
    ∀ later, last ≤ later → (operand.skipTo later).unread = positions.dropWhile (· ≤ later)

namespace StandsBefore

theorem mono (stands : operand.StandsBefore last positions) (ordered : last ≤ later) :
    operand.StandsBefore later positions :=
  ⟨stands.1, fun bound reached => stands.2 bound (ordered.trans reached)⟩

theorem ofPositions (last : Nat) (positions : List Nat) :
    (Occurrences.ofPositions positions).StandsBefore last positions :=
  ⟨rfl, fun _ _ => rfl⟩

theorem restart (stands : operand.StandsBefore last positions) (position : Nat) :
    (operand.restart position).StandsBefore position positions :=
  ⟨stands.1, fun _ reached => by
    rw [← stands.1]
    exact dropWhile_dropWhile_le reached⟩

end StandsBefore

end Occurrences

/-! ## One chain -/

/-- A chain that is found passes some positions of each operand, and takes a step to the one that is
then the next of each operand in turn. -/
theorem chain_eq_some (found : chain distance last operands = some (ending, moved)) :
    List.Forall₂ (fun operand after => ∃ position, after = operand.skipTo position) operands moved ∧
      ∃ behind, List.Forall₂ (fun after position => after.unread.head? = some position) moved behind ∧
        (last :: behind).IsChain (IsStep distance) ∧
          (last :: behind).getLast? = some ending := by
  induction operands generalizing last moved with
  | nil =>
      simp only [chain, Option.some.injEq, Prod.mk.injEq] at found
      obtain ⟨rfl, rfl⟩ := found
      exact ⟨.nil, [], .nil, .singleton _, rfl⟩
  | cons operand operands induction =>
      rw [chain] at found
      dsimp only at found
      split at found
      · simp at found
      · next position rest unread =>
          split at found
          · simp at found
          · next near =>
              obtain ⟨⟨other, after⟩, continued, same⟩ := Option.map_eq_some_iff.mp found
              simp only [Prod.mk.injEq] at same
              obtain ⟨rfl, rfl⟩ := same
              obtain ⟨passed, behind, heads, steps, ends⟩ := induction continued
              have beyond : last < position := (mem_of_dropWhile unread).2
              refine ⟨.cons ⟨last, rfl⟩ passed, position :: behind,
                .cons (List.head?_eq_some_iff.mpr ⟨rest, unread⟩) heads, ?_, ?_⟩
              · exact List.isChain_cons_cons.mpr ⟨⟨beyond, Nat.le_of_not_lt near⟩, steps⟩
              · simpa using ends

/-- Operands that have passed some positions still have the same ones. -/
theorem reads_of_passed (reads : List.Forall₂ Occurrences.Reads rows operands)
    (passed : List.Forall₂ (fun operand after => ∃ position, after = operand.skipTo position) operands
      moved) : List.Forall₂ Occurrences.Reads rows moved := by
  refine forall₂_comp reads passed ?_
  rintro positions operand _ reads ⟨position, rfl⟩
  exact reads.skipTo position

/-- The steps of a chain that is found go to positions of the operands. -/
theorem steps_of_chain (reads : List.Forall₂ Occurrences.Reads rows operands)
    (found : chain distance last operands = some (ending, moved)) :
    List.Forall₂ Occurrences.Reads rows moved ∧
      ∃ behind, List.Forall₂ (fun positions position => position ∈ positions) rows behind ∧
        (last :: behind).IsChain (IsStep distance) ∧
          (last :: behind).getLast? = some ending := by
  obtain ⟨passed, behind, heads, steps, ends⟩ := chain_eq_some found
  have readsAfter := reads_of_passed reads passed
  have members := forall₂_comp readsAfter heads fun reads head => reads.2 (List.mem_of_mem_head? head)
  exact ⟨readsAfter, behind, members, steps, ends⟩

/-- Operands that have passed nothing behind the anchor form a chain if and only if their next
positions do. -/
theorem isSome_chain_iff (distance : Nat) (sorted : ∀ positions ∈ rows, positions.Pairwise (· ≤ ·))
    (stands : List.Forall₂ (Occurrences.StandsBefore last) rows operands) :
    (chain distance last operands).isSome ↔ Succeeds distance last rows := by
  induction operands generalizing last rows with
  | nil =>
      cases stands
      simpa [chain] using Succeeds.nil
  | cons operand operands induction =>
      obtain _ | @⟨positions, _, rows, _, head, later⟩ := stands
      obtain ⟨sort, sortLater⟩ := List.forall_mem_cons.mp sorted
      have unread := head.2 last le_rfl
      rw [chain]
      dsimp only
      rw [unread]
      cases passed : positions.dropWhile (· ≤ last) with
      | nil =>
          have none : ∀ found ∈ positions, found ≤ last := by
            simpa using List.dropWhile_eq_nil_iff.mp passed
          simp only [Option.isSome_none, Bool.false_eq_true, false_iff]
          intro succeeds
          cases succeeds with
          | cons next => exact absurd next.1.2 (Nat.not_lt_of_le (none _ next.1.1))
      | cons position rest =>
          have next := isLeast_of_dropWhile sort passed
          have ordered : last ≤ position := next.1.2.le
          dsimp only
          split
          · next far =>
              simp only [Option.isSome_none, Bool.false_eq_true, false_iff]
              intro succeeds
              cases succeeds with
              | cons other near => exact absurd (other.unique next ▸ near) (Nat.not_le_of_lt far)
          · next near =>
              rw [Option.isSome_map, induction sortLater (later.imp fun _ _ stands =>
                stands.mono ordered)]
              constructor
              · exact .cons next (Nat.le_of_not_lt near)
              · intro succeeds
                cases succeeds with
                | cons other _ continues => exact other.unique next ▸ continues

/-! ## All chains -/

/-- Each position that is written ends a chain that an anchor begins. -/
theorem steps_of_mem_chainEnds (reads : List.Forall₂ Occurrences.Reads rows operands)
    (written : ending ∈ chainEnds distance anchors operands) :
    ∃ anchor ∈ anchors, ∃ behind,
      List.Forall₂ (fun positions position => position ∈ positions) rows behind ∧
        (anchor :: behind).IsChain (IsStep distance) ∧
          (anchor :: behind).getLast? = some ending := by
  induction anchors generalizing operands with
  | nil => simp [chainEnds] at written
  | cons anchor anchors induction =>
      have deeper (after : List Occurrences) (readsAfter : List.Forall₂ Occurrences.Reads rows after)
          (among : ending ∈ chainEnds distance anchors after) :
          ∃ first ∈ anchor :: anchors, ∃ behind,
            List.Forall₂ (fun positions position => position ∈ positions) rows behind ∧
              (first :: behind).IsChain (IsStep distance) ∧
                (first :: behind).getLast? = some ending := by
        obtain ⟨first, member, found⟩ := induction readsAfter among
        exact ⟨first, List.mem_cons_of_mem _ member, found⟩
      unfold chainEnds at written
      cases found : chain distance anchor operands with
      | some outcome =>
          obtain ⟨reached, after⟩ := outcome
          obtain ⟨readsAfter, behind, steps⟩ := steps_of_chain reads found
          rw [found] at written
          rcases List.mem_cons.mp written with rfl | among
          · exact ⟨anchor, List.mem_cons_self, behind, steps⟩
          · refine deeper _ (List.forall₂_map_right_iff.mpr ?_) among
            exact readsAfter.imp fun _ _ reads => reads.next
      | none =>
          rw [found] at written
          cases anchors with
          | nil => simp at written
          | cons next anchors =>
              refine deeper _ (List.forall₂_map_right_iff.mpr ?_) written
              exact reads.imp fun _ _ reads => reads.restart next

/-- Some position is written if and only if some anchor begins a chain of next positions. -/
theorem chainEnds_ne_nil_iff (distance : Nat) {anchors : List Nat}
    (sorted : ∀ positions ∈ rows, positions.Pairwise (· ≤ ·))
    (stands : ∀ anchor, anchors.head? = some anchor →
      List.Forall₂ (Occurrences.StandsBefore anchor) rows operands) :
    chainEnds distance anchors operands ≠ [] ↔ ∃ anchor ∈ anchors, Succeeds distance anchor rows := by
  induction anchors generalizing operands with
  | nil => simp [chainEnds]
  | cons anchor anchors induction =>
      have standsHere := stands anchor rfl
      have here := isSome_chain_iff distance sorted standsHere
      unfold chainEnds
      cases found : chain distance anchor operands with
      | some outcome =>
          rw [found] at here
          simpa using Or.inl (here.mp rfl)
      | none =>
          have fails : ¬Succeeds distance anchor rows := fun succeeds => by
            simpa [found] using here.mpr succeeds
          simp only [List.mem_cons, exists_eq_or_imp, fails, false_or]
          cases anchors with
          | nil => simp
          | cons next anchors =>
              refine induction fun first same => List.forall₂_map_right_iff.mpr ?_
              obtain rfl := Option.some.inj same
              exact standsHere.imp fun _ _ stands => stands.restart next

/-! ## The list of an ordered match -/

namespace Cursor

variable {ω : Type} {first second : InvertedList} {others : List InvertedList}
  {cursors : List (Cursor ω)}

/-- The postings of an ordered match of two or more operands. -/
theorem mem_postings_materialize_near_iff (field : Field) (distance : Nat)
    (ascending : ∀ list ∈ first :: second :: others, list.Ascending)
    (read : List.Forall₂ (fun list cursor => cursor.reader? = some (.ofList list))
      (first :: second :: others) cursors) (posting : Posting) :
    posting ∈ (materialize field (.near distance) cursors).1.postings ↔
      ∃ document, (∀ list ∈ first :: second :: others, document ∈ list.documents) ∧
        nearPositions distance
            ((first :: second :: others).map (InvertedList.positionsAt document)) ≠ [] ∧
          posting = .ofPositions document (nearPositions distance
            ((first :: second :: others).map (InvertedList.positionsAt document))) := by
  rw [combines_materialize_near field distance ascending read posting]
  constructor
  · rintro ⟨shared, nonempty, written⟩
    exact ⟨posting.document, shared, nonempty, written⟩
  · rintro ⟨document, shared, nonempty, rfl⟩
    exact ⟨shared, nonempty, rfl⟩

/-- The documents of an ordered match: those of all lists in which a position of the first list begins a
chain of next positions. -/
theorem mem_documents_materialize_near_iff (field : Field) (distance : Nat)
    (ascending : ∀ list ∈ first :: second :: others, list.Ascending)
    (sorted : ∀ list ∈ second :: others, ∀ posting ∈ list.postings,
      posting.positions.Pairwise (· ≤ ·))
    (read : List.Forall₂ (fun list cursor => cursor.reader? = some (.ofList list))
      (first :: second :: others) cursors) (document : DocumentId) :
    document ∈ (materialize field (.near distance) cursors).1.documents ↔
      (∀ list ∈ first :: second :: others, document ∈ list.documents) ∧
        ∃ position ∈ first.positionsAt document,
          Succeeds distance position
            ((second :: others).map (InvertedList.positionsAt document)) := by
  have pairwise : ∀ positions ∈ (second :: others).map (InvertedList.positionsAt document),
      positions.Pairwise (· ≤ ·) := InvertedList.rowsAt_pairwise sorted document
  rw [← chainEnds_ne_nil_iff distance pairwise fun anchor _ => List.forall₂_map_right_iff.mpr
    (List.forall₂_same.mpr fun positions _ => .ofPositions anchor positions)]
  exact (combines_materialize_near field distance ascending read).mem_documents_iff

/-- An ordered match of two or more lists. Each position that it writes for a document ends a chain of
steps through positions of the lists there. It has exactly the documents of all lists in which some
position of the first list begins a chain of next positions; of two lists, those in which some two
positions are a step. -/
theorem materialize_near_ordered (field : Field) (distance : Nat)
    (ascending : ∀ list ∈ first :: second :: others, list.Ascending)
    (sorted : ∀ list ∈ first :: second :: others, ∀ posting ∈ list.postings,
      posting.positions.Pairwise (· ≤ ·))
    (read : List.Forall₂ (fun list cursor => cursor.reader? = some (.ofList list))
      (first :: second :: others) cursors) :
    let near := (materialize field (.near distance) cursors).1
    (∀ posting ∈ near.postings, ∀ position ∈ posting.positions, ∃ steps : List Nat,
        List.Forall₂ (fun list step => step ∈ list.positionsAt posting.document)
            (first :: second :: others) steps ∧
          steps.IsChain (IsStep distance) ∧ steps.getLast? = some position) ∧
      (∀ document, document ∈ near.documents ↔
        (∀ list ∈ first :: second :: others, document ∈ list.documents) ∧
          ∃ position ∈ first.positionsAt document,
            Succeeds distance position
              ((second :: others).map (InvertedList.positionsAt document))) ∧
      (others = [] → ∀ document, document ∈ near.documents ↔
        ∃ before ∈ first.positionsAt document, ∃ after ∈ second.positionsAt document,
          IsStep distance before after) := by
  intro near
  have written (posting : Posting) :=
    mem_postings_materialize_near_iff field distance ascending read posting
  have documents (document : DocumentId) := mem_documents_materialize_near_iff field distance ascending
    (fun list member => sorted list (List.mem_cons_of_mem _ member)) read document
  refine ⟨fun posting member position among => ?_, documents, ?_⟩
  · obtain ⟨document, -, -, rfl⟩ := (written _).mp member
    obtain ⟨anchor, begins, behind, members, steps, ends⟩ := steps_of_mem_chainEnds
      (List.forall₂_map_right_iff.mpr
        (List.forall₂_same.mpr fun positions _ => .ofPositions positions)) among
    exact ⟨anchor :: behind, .cons begins (List.forall₂_map_left_iff.mp members), steps, ends⟩
  · rintro rfl document
    rw [documents]
    simp only [List.map_cons, List.map_nil, succeeds_singleton_iff]
    constructor
    · rintro ⟨-, found⟩
      exact found
    · rintro ⟨before, begins, after, ends, step⟩
      refine ⟨?_, before, begins, after, ends, step⟩
      simpa using ⟨InvertedList.mem_documents_of_mem_positionsAt begins,
        InvertedList.mem_documents_of_mem_positionsAt ends⟩

/-- The second position of the first word begins a match where the first one is too far away. -/
theorem materialize_near_ordered_secondAnchor :
    let list (positions : List Nat) := InvertedList.ofPostings .body [.ofPositions 4 positions]
    let cursor (positions : List Nat) : Cursor Nat :=
      .term "word" .body (some (.ofList (list positions)))
    4 ∈ (materialize .body (.near 2) [cursor [1, 6], cursor [4, 8]]).1.documents := by
  intro list cursor
  have read : List.Forall₂ (fun list cursor => cursor.reader? = some (.ofList list))
      [list [1, 6], list [4, 8]] [cursor [1, 6], cursor [4, 8]] := .cons rfl (.cons rfl .nil)
  have ordered := materialize_near_ordered .body 2
    (by simp [list, InvertedList.Ascending, InvertedList.ofPostings, InvertedList.cons,
      InvertedList.empty])
    (by simp [list, InvertedList.ofPostings, InvertedList.cons, InvertedList.empty,
      Posting.ofPositions])
    read
  exact (ordered.2.2 rfl 4).mpr ⟨6, by decide, 8, by decide, by decide⟩

end Cursor

end Retrieval
