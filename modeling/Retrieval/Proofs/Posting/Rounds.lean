import Retrieval.Proofs.Posting.Chains
import Retrieval.Proofs.Posting.Spans

/-!
# Rounds of the loops over positions

The loops that look for ordered and unordered matches are said here round by round, without any bound on
their number, and a round that would take a greater position from a lesser one has no outcome. Whatever
positions the operands have, sorted or not, every round has an outcome and uses up a position, so the loops
end, and they find what the ordered and the unordered match of positions are.
-/

namespace Retrieval

/-- How far the second position lies behind the first one; there is no answer if it lies before it. -/
def difference? (before after : Nat) : Option Nat :=
  if before ≤ after then some (after - before) else none

theorem difference?_of_le {before after : Nat} (ordered : before ≤ after) :
    difference? before after = some (after - before) :=
  if_pos ordered

/-- What a round of a loop comes to. -/
inductive Round (σ : Type) where
  /-- The loop ends. -/
  | ended
  /-- There is no match here. -/
  | passed (next : σ)
  /-- A match ends on the position. -/
  | found (position : Nat) (next : σ)

/-- From the state on, each round of the loop has an outcome and there is a last one. The matches end on
the positions. -/
inductive Loops {σ : Type} (round? : σ → Option (Round σ)) : σ → List Nat → Prop
  | ended {state : σ} (last : round? state = some .ended) : Loops round? state []
  | passed {state next : σ} {ends : List Nat} (here : round? state = some (.passed next))
      (later : Loops round? next ends) : Loops round? state ends
  | found {state next : σ} {position : Nat} {ends : List Nat}
      (here : round? state = some (.found position next)) (later : Loops round? next ends) :
      Loops round? state (position :: ends)

variable {distance last : Nat} {operands others : List Occurrences} {rows : List (List Nat)}

/-! ## Ordered matches -/

/-- Continues a chain through the operands that follow, as far as it goes: its last position if it goes
through all of them, and the operands, of which those that it has reached have moved. -/
def extend? (distance last : Nat) : List Occurrences → Option (Option Nat × List Occurrences)
  | [] => some (some last, [])
  | operand :: later =>
      let operand := operand.skipTo last
      match operand.unread with
      | [] => some (none, operand :: later)
      | position :: _ => do
          let gap ← difference? last position
          if distance < gap then return (none, operand :: later)
          let (ending, later) ← extend? distance position later
          return (ending, operand :: later)

/-- Tries to make a chain of the next position of the first operand and positions of the others. There is
none without any others. -/
def nearChain? (distance : Nat) (first : Occurrences) (others : List Occurrences) :
    Option (Option Nat × List Occurrences) :=
  match first.unread, others with
  | [], others => some (none, others)
  | _ :: _, [] => some (none, [])
  | anchor :: _, others => extend? distance anchor others

/-- A round of the search for ordered matches. All operands move on behind a match. Without one the first
operand moves on, and the others begin again behind its next position. -/
def nearRound? (distance : Nat) :
    Occurrences × List Occurrences → Option (Round (Occurrences × List Occurrences))
  | (first, others) => do
      let (ending, others) ← nearChain? distance first others
      match ending with
      | some ending => return .found ending (first.next, others.map .next)
      | none =>
          match first.next.unread with
          | [] => return .ended
          | anchor :: _ => return .passed (first.next, others.map (.restart anchor))

theorem extend?_cons_of_ended {operand : Occurrences} {later : List Occurrences}
    (unread : (operand.skipTo last).unread = []) :
    extend? distance last (operand :: later) = some (none, operand.skipTo last :: later) := by
  rw [extend?]
  dsimp only
  rw [unread]

/-- No position is taken from a lesser one, because an operand moves behind the position before it
first. -/
theorem extend?_cons_of_unread {operand : Occurrences} {later : List Occurrences} {position : Nat}
    {rest : List Nat} (unread : (operand.skipTo last).unread = position :: rest) :
    extend? distance last (operand :: later) =
      if distance < position - last then some (none, operand.skipTo last :: later)
      else (extend? distance position later).map fun (ending, moved) =>
        (ending, operand.skipTo last :: moved) := by
  have behind : last < position := (mem_of_dropWhile unread).2
  rw [extend?]
  dsimp only
  rw [unread]
  dsimp only
  rw [difference?_of_le behind.le, Option.bind_eq_bind, Option.bind_some]
  split
  · rfl
  · cases extend? distance position later <;> rfl

/-- A chain that is found is the one that is made. -/
theorem extend?_of_some {ending : Nat} {moved : List Occurrences}
    (found : chain distance last operands = some (ending, moved)) :
    extend? distance last operands = some (some ending, moved) := by
  induction operands generalizing last moved with
  | nil =>
      obtain ⟨rfl, rfl⟩ := Prod.mk.inj (Option.some.inj found)
      rfl
  | cons operand later induction =>
      rw [chain] at found
      dsimp only at found
      split at found
      · simp at found
      · next position rest unread =>
          split at found
          · simp at found
          · next near =>
              obtain ⟨⟨other, after⟩, continued, same⟩ := Option.map_eq_some_iff.mp found
              obtain ⟨rfl, rfl⟩ := Prod.mk.inj same
              rw [extend?_cons_of_unread unread, if_neg near, induction continued,
                Option.map_some]

/-- Where no chain is found, none is made, and the operands have moved among their positions only. -/
theorem exists_extend?_of_none (missing : chain distance last operands = none) :
    ∃ moved, extend? distance last operands = some (none, moved) ∧
      moved.map Occurrences.all = operands.map Occurrences.all := by
  induction operands generalizing last with
  | nil => simp [chain] at missing
  | cons operand later induction =>
      rw [chain] at missing
      dsimp only at missing
      split at missing
      · next unread => exact ⟨_, extend?_cons_of_ended unread, rfl⟩
      · next position rest unread =>
          rw [extend?_cons_of_unread unread]
          split at missing
          · next far => exact ⟨_, if_pos far, rfl⟩
          · next near =>
              obtain ⟨moved, continued, same⟩ := induction (Option.map_eq_none_iff.mp missing)
              refine ⟨operand.skipTo last :: moved, ?_, ?_⟩
              · rw [if_neg near, continued, Option.map_some]
              · rw [List.map_cons, List.map_cons, same]
                rfl

/-- Where operands begin again depends on all their positions only. -/
theorem map_restart_congr {moved : List Occurrences} (anchor : Nat)
    (same : moved.map Occurrences.all = operands.map Occurrences.all) :
    moved.map (Occurrences.restart anchor) = operands.map (Occurrences.restart anchor) := by
  have restarted : Occurrences.restart anchor =
      (fun positions => (Occurrences.ofPositions positions).skipTo anchor) ∘ Occurrences.all := rfl
  rw [restarted, ← List.map_map, ← List.map_map, same]

/-- The search for ordered matches ends, wherever its operands stand: each round passes a position of the
first one. It finds the matches that its positions begin. -/
theorem loops_nearRound? (distance : Nat) (all anchors : List Nat) (nonempty : others ≠ []) :
    Loops (nearRound? distance) (⟨all, anchors⟩, others) (chainEnds distance anchors others) := by
  induction anchors generalizing others with
  | nil => exact .ended rfl
  | cons anchor anchors induction =>
      have tried : nearChain? distance ⟨all, anchor :: anchors⟩ others =
          extend? distance anchor others := by
        obtain ⟨second, later, rfl⟩ := List.exists_cons_of_ne_nil nonempty
        rfl
      unfold chainEnds
      cases chained : chain distance anchor others with
      | some outcome =>
          obtain ⟨ending, moved⟩ := outcome
          have made := tried.trans (extend?_of_some chained)
          have kept : moved.length = others.length := (chain_eq_some chained).1.length_eq.symm
          have round : nearRound? distance (⟨all, anchor :: anchors⟩, others) =
              some (.found ending (⟨all, anchors⟩, moved.map Occurrences.next)) := by
            simp [nearRound?, made, Occurrences.next]
          refine .found round (induction (List.ne_nil_of_length_pos ?_))
          rw [List.length_map, kept]
          exact List.length_pos_iff.mpr nonempty
      | none =>
          obtain ⟨moved, continued, same⟩ := exists_extend?_of_none chained
          have made := tried.trans continued
          cases anchors with
          | nil => exact .ended (by simp [nearRound?, made, Occurrences.next])
          | cons next anchors =>
              have round : nearRound? distance (⟨all, anchor :: next :: anchors⟩, others) =
                  some (.passed (⟨all, next :: anchors⟩, others.map (Occurrences.restart next))) := by
                simp [nearRound?, made, Occurrences.next, map_restart_congr next same]
              exact .passed round (induction (by simpa using nonempty))

/-- Without other operands no round makes a match, and the search passes the positions one by one. -/
theorem loops_nearRound?_alone (distance : Nat) (all anchors : List Nat) :
    Loops (nearRound? distance) (⟨all, anchors⟩, []) [] := by
  induction anchors with
  | nil => exact .ended rfl
  | cons anchor anchors induction =>
      cases anchors with
      | nil => exact .ended rfl
      | cons next anchors => exact .passed rfl induction

/-! ## Unordered matches -/

/-- The next positions lie close together, but not all on one place. Their difference is asked for only if
the rightmost of them lies behind the leftmost. -/
def isSpan? (size left right : Nat) : Option Bool :=
  if left < right then (difference? left right).map fun gap => gap < size else some false

/-- A round of the search for unordered matches, on the unread positions of the operands. -/
def windowRound? (size : Nat) (unread : List (List Nat)) : Option (Round (List (List Nat))) :=
  match unread.mapM List.head? with
  | none => some .ended
  | some heads =>
      match heads.min?, heads.max? with
      | some left, some right =>
          (isSpan? size left right).map fun isSpan =>
            if isSpan then .found right (unread.map List.tail)
            else .passed (unread.modify (heads.idxOf left) List.tail)
      | _, _ => some .ended

theorem isSpan?_eq (size left right : Nat) :
    isSpan? size left right = some (left < right && right - left < size) := by
  rw [isSpan?]
  split
  · next behind => simp [difference?_of_le behind.le, behind]
  · next ordered => simp [ordered]

/-- The rounds of the search are those that are counted. -/
theorem spanEnds_succ (size rounds : Nat) (rows : List (List Nat)) :
    spanEnds size (rounds + 1) rows =
      match windowRound? size rows with
      | some (.found position next) => position :: spanEnds size rounds next
      | some (.passed next) => spanEnds size rounds next
      | _ => [] := by
  rw [spanEnds, windowRound?]
  cases rows.mapM List.head? with
  | none => rfl
  | some heads =>
      dsimp only
      cases heads.min? with
      | none => rfl
      | some left =>
          cases heads.max? with
          | none => rfl
          | some right =>
              dsimp only
              rw [isSpan?_eq, Option.map_some]
              cases left < right && right - left < size <;> rfl

/-- Every round has an outcome, and one that is not the last passes a position. -/
theorem windowRound?_cases (size : Nat) (rows : List (List Nat)) :
    windowRound? size rows = some .ended ∨
      ∃ next, next.flatten.length < rows.flatten.length ∧
        (windowRound? size rows = some (.passed next) ∨
          ∃ position, windowRound? size rows = some (.found position next)) := by
  rw [windowRound?]
  rcases mapM_head? rows with ⟨heads, found, each⟩ | ⟨ended, -⟩
  · rw [found]
    dsimp only
    split
    · next left right least greatest =>
        rw [isSpan?_eq, Option.map_some]
        have fronts : Fronts rows heads left right := ⟨each, least, greatest⟩
        split
        · exact .inr ⟨_, fronts.length_tails_lt, .inr ⟨right, rfl⟩⟩
        · obtain ⟨before, rest, after, rfl, changed⟩ :=
            modify_idxOf each (List.min?_eq_some_iff.mp least).1
          rw [changed]
          exact .inr ⟨_, by simp, .inl rfl⟩
    · exact .inl rfl
  · rw [ended]
    exact .inl rfl

/-- The search for unordered matches ends, whatever positions its operands have. -/
theorem loops_windowRound? (size rounds : Nat) (enough : rows.flatten.length < rounds) :
    Loops (windowRound? size) rows (spanEnds size rounds rows) := by
  induction rounds generalizing rows with
  | zero => exact absurd enough (Nat.not_lt_zero _)
  | succ rounds induction =>
      rw [spanEnds_succ]
      rcases windowRound?_cases size rows with last | ⟨next, fewer, here | ⟨position, here⟩⟩
      · rw [last]
        exact .ended last
      · rw [here]
        exact .passed here (induction (Nat.lt_of_lt_of_le fewer (Nat.le_of_lt_succ enough)))
      · rw [here]
        exact .found here (induction (Nat.lt_of_lt_of_le fewer (Nat.le_of_lt_succ enough)))

/-! ## Both loops -/

/-- The loops over positions end for any number of operands, any distance or size and any positions, and
no round takes a greater position from a lesser one. What they find are the ordered and the unordered
matches of two or more operands; a single one has no ordered match. -/
theorem position_loops_end :
    (∀ distance first second others,
      Loops (nearRound? distance)
        (.ofPositions first, (second :: others).map Occurrences.ofPositions)
        (nearPositions distance (first :: second :: others))) ∧
      (∀ distance first, Loops (nearRound? distance) (.ofPositions first, []) []) ∧
      ∀ size rows, Loops (windowRound? size) rows (windowPositions size rows) := by
  refine ⟨fun distance first second others => ?_, fun distance first => ?_, fun size rows => ?_⟩
  · exact loops_nearRound? distance first first (List.cons_ne_nil _ _)
  · exact loops_nearRound?_alone distance first first
  · exact loops_windowRound? size _ (Nat.lt_succ_self _)

end Retrieval
