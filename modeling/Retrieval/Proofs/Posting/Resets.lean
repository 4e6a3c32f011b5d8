import Retrieval.Proofs.Posting.Chains
import Retrieval.Proofs.Posting.Choices
import Retrieval.Proofs.Posting.Lengths

/-!
# Ordered matches one after the other

A match of an ordered operator uses up the positions on it, so the next match lies behind it in all
operands as long as the next position of the first operand begins one. A position that begins none
sends the other operands back to all that follows the next position of the first one, be it used or not.
So a position can be used again, and the positions that are written need not ascend, but only where a
position of the first operand lies between the beginnings of two matches.
-/

namespace Retrieval

/-- There is a position of each row, each a step behind the one before. -/
structure IsMatch (distance : Nat) (rows : List (List Nat)) (steps : List Nat) : Prop where
  /-- There is a position of each row. -/
  isChoice : IsChoice rows steps
  /-- Each lies behind the one before, and no farther than the distance. -/
  near : steps.IsChain (IsStep distance)

/-- The later match begins behind the earlier one. If no anchor lies between their beginnings, it lies
behind it in all rows. -/
def Follows (anchors earlier later : List Nat) : Prop :=
  ∃ before after, earlier.head? = some before ∧ later.head? = some after ∧ before < after ∧
    ((∀ between ∈ anchors, between ≤ before ∨ after ≤ between) → LiesBefore earlier later)

/-- Wherever an anchor lies between the beginnings of two matches, the later one lies behind the earlier
one in all rows. -/
def LieApart (distance : Nat) (anchors : List Nat) (rows : List (List Nat)) : Prop :=
  ∀ {earlier later : List Nat} {before after between : Nat},
    IsMatch distance (anchors :: rows) earlier → IsMatch distance (anchors :: rows) later →
      earlier.head? = some before → later.head? = some after → between ∈ anchors →
        before < between → between < after → LiesBefore earlier later

variable {distance anchor ending : Nat} {anchors steps earlier later behind ends : List Nat}
  {rows unread : List (List Nat)} {operand : Occurrences} {operands : List Occurrences}
  {found : List (List Nat)}

theorem IsMatch.mono (isMatch : IsMatch distance (anchors :: rows) steps) :
    IsMatch distance ((anchor :: anchors) :: rows) steps :=
  ⟨isMatch.isChoice.mono (.cons (List.subset_cons_self anchor anchors) (within_refl rows)),
    isMatch.near⟩

theorem Follows.liesBefore (follows : Follows anchors earlier later)
    (apart : LieApart distance anchors rows) (isMatch : IsMatch distance (anchors :: rows) earlier)
    (isMatchLater : IsMatch distance (anchors :: rows) later) : LiesBefore earlier later := by
  obtain ⟨before, after, begins, beginsLater, -, direct⟩ := follows
  by_cases free : ∀ between ∈ anchors, between ≤ before ∨ after ≤ between
  · exact direct free
  · push Not at free
    obtain ⟨between, member, behind, ahead⟩ := free
    exact apart isMatch isMatchLater begins beginsLater member behind ahead

/-- Of two matches of single steps, the one that begins farther on lies behind the other one: their
beginnings determine all positions. -/
theorem IsMatch.liesBefore_of_le_one {before after : Nat} (single : distance ≤ 1)
    (isMatch : IsMatch distance rows earlier) (isMatchLater : IsMatch distance rows later)
    (begins : earlier.head? = some before) (beginsLater : later.head? = some after)
    (less : before < after) : LiesBefore earlier later := by
  obtain ⟨choice, near⟩ := isMatch
  obtain ⟨choiceLater, nearLater⟩ := isMatchLater
  induction choice generalizing later before after with
  | nil => simp at begins
  | cons _ choice induction =>
      obtain ⟨next, laterRest, -, choiceRest, rfl⟩ := List.forall₂_cons_left_iff.mp choiceLater
      obtain rfl := Option.some.inj begins
      obtain rfl := Option.some.inj beginsLater
      refine .cons less ?_
      cases choice with
      | nil =>
          obtain rfl := List.forall₂_nil_left_iff.mp choiceRest
          exact .nil
      | cons member choice =>
          obtain ⟨other, others, -, -, rfl⟩ := List.forall₂_cons_left_iff.mp choiceRest
          obtain ⟨step, nearRest⟩ := List.isChain_cons_cons.mp near
          obtain ⟨stepLater, nearLaterRest⟩ := List.isChain_cons_cons.mp nearLater
          refine induction rfl rfl ?_ nearRest choiceRest nearLaterRest
          simp only [IsStep] at step stepLater
          omega

theorem lieApart_of_le_one (single : distance ≤ 1) (anchors : List Nat) (rows : List (List Nat)) :
    LieApart distance anchors rows := by
  intro earlier later before after between isMatch isMatchLater begins beginsLater _ behind ahead
  exact isMatch.liesBefore_of_le_one single isMatchLater begins beginsLater
    (Nat.lt_trans behind ahead)

/-! ## The matches of a run -/

/-- All positions of the operand ascend, and so do those that are unread. -/
structure Occurrences.Ascending (operand : Occurrences) : Prop where
  /-- All positions ascend. -/
  all : operand.all.Pairwise (· < ·)
  /-- The unread positions ascend. -/
  unread : operand.unread.Pairwise (· < ·)

namespace Occurrences.Ascending

theorem ofPositions {positions : List Nat} (ascend : positions.Pairwise (· < ·)) :
    (Occurrences.ofPositions positions).Ascending :=
  ⟨ascend, ascend⟩

variable (ascending : operand.Ascending)

include ascending

theorem skipTo (position : Nat) : (operand.skipTo position).Ascending :=
  ⟨ascending.all, ascending.unread.sublist (List.dropWhile_suffix _).sublist⟩

theorem next : operand.next.Ascending :=
  ⟨ascending.all, ascending.unread.sublist (List.tail_sublist _)⟩

theorem restart (position : Nat) : (operand.restart position).Ascending :=
  (ofPositions ascending.all).skipTo position

end Occurrences.Ascending

/-- What is found from the anchors, by operands with the given rows and unread positions. -/
structure Finds (distance : Nat) (anchors : List Nat) (rows unread : List (List Nat))
    (ends : List Nat) (found : List (List Nat)) : Prop where
  /-- The matches end on the positions that are written. -/
  endOn : List.Forall₂ (fun steps position => steps.getLast? = some position) found ends
  /-- They are matches. -/
  isMatch : ∀ steps ∈ found, IsMatch distance (anchors :: rows) steps
  /-- Each follows the one before it. -/
  follows : found.IsChain (Follows anchors)
  /-- A match from the first anchor takes what is unread of the rows. -/
  fresh : ∀ anchor behind, anchors.head? = some anchor →
    found.head? = some (anchor :: behind) → IsChoice unread behind

namespace Finds

theorem nil (unread : List (List Nat)) : Finds distance anchors rows unread [] [] :=
  ⟨.nil, by simp, .nil, by simp⟩

/-- The first match begins at an anchor. -/
theorem exists_anchor (finds : Finds distance anchors rows unread ends found)
    (first : found.head? = some steps) :
    ∃ anchor behind, steps = anchor :: behind ∧ anchor ∈ anchors ∧
      (anchors.head? = some anchor → IsChoice unread behind) := by
  obtain ⟨anchor, behind, member, -, rfl⟩ :=
    List.forall₂_cons_left_iff.mp (finds.isMatch steps (List.mem_of_mem_head? first)).isChoice
  exact ⟨anchor, behind, rfl, member, fun here => finds.fresh anchor behind here first⟩

variable {after : List (List Nat)} (finds : Finds distance anchors rows after ends found)
  (ascend : (anchor :: anchors).Pairwise (· < ·))

include finds ascend

/-- An anchor that begins no match leaves what is found from those behind it. -/
theorem passed (unread : List (List Nat)) : Finds distance (anchor :: anchors) rows unread ends found where
  endOn := finds.endOn
  isMatch steps member := (finds.isMatch steps member).mono
  follows := by
    refine finds.follows.imp ?_
    rintro earlier later ⟨before, after, begins, beginsLater, less, direct⟩
    exact ⟨before, after, begins, beginsLater, less,
      fun free => direct fun between member => free between (List.mem_cons_of_mem _ member)⟩
  fresh := by
    rintro _ behind here first
    obtain rfl := Option.some.inj here
    obtain ⟨other, _, same, member, -⟩ := finds.exists_anchor first
    obtain rfl := (List.cons.inj same).1
    exact absurd (List.rel_of_pairwise_cons ascend member) (Nat.lt_irrefl anchor)

/-- A match uses up what its operands have up to it. The next one lies behind it, unless it begins
farther on than at the next anchor. -/
theorem cons (isMatch : IsMatch distance ((anchor :: anchors) :: rows) (anchor :: behind))
    (endsOn : (anchor :: behind).getLast? = some ending) (taken : IsChoice unread behind)
    (used : ∀ later, IsChoice after later → LiesBefore behind later) :
    Finds distance (anchor :: anchors) rows unread (ending :: ends) ((anchor :: behind) :: found) where
  endOn := .cons endsOn finds.endOn
  isMatch := List.forall_mem_cons.mpr ⟨isMatch, (finds.passed ascend unread).isMatch⟩
  follows := by
    refine List.isChain_cons.mpr ⟨fun steps first => ?_, (finds.passed ascend unread).follows⟩
    obtain ⟨next, later, rfl, member, fresh⟩ := finds.exists_anchor first
    have less : anchor < next := List.rel_of_pairwise_cons ascend member
    refine ⟨anchor, next, rfl, rfl, less, fun free => .cons less (used later (fresh ?_))⟩
    obtain ⟨head, rest, rfl⟩ := List.exists_cons_of_ne_nil (List.ne_nil_of_mem member)
    have beyond : anchor < head := List.rel_of_pairwise_cons ascend List.mem_cons_self
    have reached : next ≤ head :=
      (free head (by simp)).resolve_left (Nat.not_le_of_lt beyond)
    rcases List.mem_cons.mp member with rfl | behindHead
    · rfl
    · have := List.rel_of_pairwise_cons (List.pairwise_cons.mp ascend).2 behindHead
      omega
  fresh := by
    rintro _ _ here first
    obtain rfl := Option.some.inj here
    obtain ⟨-, rfl⟩ := List.cons.inj (Option.some.inj first)
    exact taken

end Finds

/-- What a run finds from its anchors. The induction is on them: a match leaves the operands behind it,
an anchor without a match leaves them somewhere among all their positions. -/
theorem exists_finds_chainEnds (ascend : anchors.Pairwise (· < ·))
    (ascending : ∀ operand ∈ operands, operand.Ascending)
    (reads : List.Forall₂ Occurrences.Reads rows operands) :
    ∃ found, Finds distance anchors rows (operands.map Occurrences.unread)
      (chainEnds distance anchors operands) found := by
  induction anchors generalizing operands with
  | nil => exact ⟨[], .nil _⟩
  | cons anchor anchors induction =>
      have ascendLater := (List.pairwise_cons.mp ascend).2
      unfold chainEnds
      cases chained : chain distance anchor operands with
      | some outcome =>
          obtain ⟨ending, moved⟩ := outcome
          obtain ⟨passed, behind, heads, near, ends⟩ := chain_eq_some chained
          have readsAfter := reads_of_passed reads passed
          have ascendingAfter : ∀ after ∈ moved, after.Ascending := by
            intro after member
            obtain ⟨operand, among, position, rfl⟩ := exists_of_mem_forall₂ passed.flip member
            exact (ascending operand among).skipTo position
          obtain ⟨found, finds⟩ := induction ascendLater
            (List.forall_mem_map.mpr fun after member => (ascendingAfter after member).next)
            (List.forall₂_map_right_iff.mpr (readsAfter.imp fun _ _ reads => reads.next))
          have members : IsChoice rows behind :=
            forall₂_comp readsAfter heads fun reads head => reads.2 (List.mem_of_mem_head? head)
          have taken : IsChoice (operands.map Occurrences.unread) behind := by
            refine List.forall₂_map_left_iff.mpr (forall₂_comp passed heads ?_)
            rintro operand _ position ⟨last, rfl⟩ head
            exact (List.dropWhile_suffix _).subset (List.mem_of_mem_head? head)
          refine ⟨_, finds.cons ascend ⟨.cons List.mem_cons_self members, near⟩ ends taken
            fun later choice => ?_⟩
          have unread : (moved.map Occurrences.next).map Occurrences.unread =
              (moved.map Occurrences.unread).map List.tail := by
            simp [Occurrences.next]
          rw [unread] at choice
          exact liesBefore_of_tails
            (List.forall_mem_map.mpr fun after member => (ascendingAfter after member).unread)
            (List.forall₂_map_left_iff.mpr heads) choice
      | none =>
          -- The operands begin again, so nothing is known of what is unread from here on.
          cases anchors with
          | nil => exact ⟨[], (Finds.nil []).passed ascend _⟩
          | cons next anchors =>
              obtain ⟨found, finds⟩ := induction ascendLater
                (List.forall_mem_map.mpr fun operand member =>
                  (ascending operand member).restart next)
                (List.forall₂_map_right_iff.mpr (reads.imp fun _ _ reads => reads.restart next))
              exact ⟨found, finds.passed ascend _⟩

/-- The matches of an ordered operator. -/
theorem exists_matches_nearPositions (distance : Nat)
    (sorted : ∀ positions ∈ anchors :: rows, positions.Pairwise (· < ·)) :
    ∃ found : List (List Nat),
      List.Forall₂ (fun steps position => steps.getLast? = some position) found
          (nearPositions distance (anchors :: rows)) ∧
        (∀ steps ∈ found, IsMatch distance (anchors :: rows) steps) ∧
        found.IsChain (Follows anchors) := by
  obtain ⟨ascend, sortedLater⟩ := List.forall_mem_cons.mp sorted
  obtain ⟨found, finds⟩ := exists_finds_chainEnds ascend
    (List.forall_mem_map.mpr fun positions member => .ofPositions (sortedLater positions member))
    (List.forall₂_map_right_iff.mpr
      (List.forall₂_same.mpr fun positions _ => .ofPositions positions))
  exact ⟨found, finds.endOn, finds.isMatch, finds.follows⟩

/-! ## The list of an ordered match -/

namespace Cursor

open InvertedList

variable {ω : Type} {first second : InvertedList} {others : List InvertedList}
  {cursors : List (Cursor ω)}

/-- An ordered match of two or more sorted lists. The positions that it writes for a document end matches
that begin one behind the other, and each match without a position of the first list between its
beginning and the one before lies behind that one in all lists; there are no more of them than
occurrences in the first list. If all matches there with a position of the first list between their
beginnings lie one behind the other, then the positions that are written ascend, and no list has
fewer occurrences. -/
theorem materialize_near_progress (field : Field) (distance : Nat)
    (sorted : ∀ list ∈ first :: second :: others, list.Sorted)
    (read : List.Forall₂ (fun list cursor => cursor.reader? = some (.ofList list))
      (first :: second :: others) cursors) :
    ∀ posting ∈ (materialize field (.near distance) cursors).1.postings,
      (∃ found : List (List Nat),
        List.Forall₂ (fun steps position => steps.getLast? = some position) found
            posting.positions ∧
          (∀ steps ∈ found,
            IsMatch distance (rowsAt posting.document (first :: second :: others)) steps) ∧
          found.IsChain (Follows (first.positionsAt posting.document))) ∧
        posting.frequency ≤ first.frequencyAt posting.document ∧
        (LieApart distance (first.positionsAt posting.document)
            (rowsAt posting.document (second :: others)) →
          posting.positions.Pairwise (· < ·) ∧
            ∀ list ∈ first :: second :: others,
              posting.frequency ≤ list.frequencyAt posting.document) := by
  intro posting member
  have combines := combines_materialize_near field distance
    (fun list member => (sorted list member).ascending) read
  obtain ⟨found, endOn, isMatch, follows⟩ :=
    exists_matches_nearPositions distance
      (rowsAt_pairwise (fun list member => (sorted list member).positions) posting.document)
  have written : posting.positions = nearPositions distance
      (rowsAt posting.document (first :: second :: others)) := combines.positions_eq member
  replace endOn : List.Forall₂ (fun steps position => steps.getLast? = some position) found
      posting.positions := written ▸ endOn
  refine ⟨⟨found, endOn, isMatch, follows⟩, ?_, fun apart => ?_⟩
  · rw [combines.frequency_eq member, frequencyAt_eq (sorted first List.mem_cons_self).counts, written]
    exact length_nearPositions_le distance _ _
  · have ordered : found.Pairwise LiesBefore := by
      refine List.isChain_iff_pairwise.mp (follows.imp_of_mem_imp ?_)
      intro earlier later among amongLater follows
      exact follows.liesBefore apart (isMatch earlier among) (isMatch later amongLater)
    refine ⟨pairwise_of_liesBefore LiesBefore.getLast?_lt endOn ordered, fun list among => ?_⟩
    rw [combines.frequency_eq member, ← endOn.length_eq]
    exact length_le_frequencyAt (sorted list among) among
      (fun steps among => (isMatch steps among).isChoice) ordered

/-- The occurrences of a phrase of two words ascend: all its matches have the same form. -/
theorem materialize_near_progress_phrase :
    let list (positions : List Nat) := InvertedList.ofPostings .body [.ofPositions 4 positions]
    let cursor (positions : List Nat) : Cursor Nat :=
      .term "word" .body (some (.ofList (list positions)))
    ∀ posting ∈ (materialize .body (.near 1) [cursor [1, 3, 6], cursor [2, 7]]).1.postings,
      posting.positions.Pairwise (· < ·) := by
  intro list cursor posting member
  have sorted : ∀ operand ∈ [list [1, 3, 6], list [2, 7]], operand.Sorted := by
    simp [list, sorted_singleton]
  have read : List.Forall₂ (fun list cursor => cursor.reader? = some (.ofList list))
      [list [1, 3, 6], list [2, 7]] [cursor [1, 3, 6], cursor [2, 7]] := .cons rfl (.cons rfl .nil)
  have progress := materialize_near_progress .body 1 sorted read posting member
  exact (progress.2.2 (lieApart_of_le_one le_rfl _ _)).1

/-- The first two positions of the first word use up the second word, and the third one begins no match.
That sends the second word back, and the fourth one begins a match with a position that has been
used. -/
theorem materialize_near_backwards :
    let list (positions : List Nat) := InvertedList.ofPostings .body [.ofPositions 0 positions]
    let cursor (positions : List Nat) : Cursor Nat :=
      .term "word" .body (some (.ofList (list positions)))
    let near := (materialize .body (.near 6) [cursor [0, 1, 2, 3], cursor [5, 6]]).1
    (∀ operand ∈ [list [0, 1, 2, 3], list [5, 6]], operand.Sorted) ∧
      ∃ posting ∈ near.postings, ¬posting.positions.Pairwise (· < ·) ∧
        (list [5, 6]).frequencyAt posting.document < posting.frequency := by
  intro list cursor near
  constructor
  · simp [list, sorted_singleton]
  · have written : near.postings = [.ofPositions 0 [5, 6, 5]] := by decide
    exact ⟨_, written ▸ List.mem_singleton_self _, by decide, by decide⟩

end Cursor

end Retrieval
