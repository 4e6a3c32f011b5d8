/-!
# Positions of operands close to each other

Within one document, the operands of a proximity operator have lists of positions. An ordered match
takes one position of each operand in turn, each at most some distance after the one before; an
unordered match takes them from a span of bounded size. A position belongs to at most one match.
-/

namespace Retrieval

/-- The positions of one operand in a document. -/
structure Occurrences where
  /-- All positions. -/
  all : List Nat
  /-- The positions that have not been passed. -/
  unread : List Nat
deriving DecidableEq, Repr

namespace Occurrences

/-- The positions before any has been passed. -/
def ofPositions (positions : List Nat) : Occurrences := ⟨positions, positions⟩

/-- Passes the positions up to a given one. -/
def skipTo (position : Nat) (occurrences : Occurrences) : Occurrences :=
  { occurrences with unread := occurrences.unread.dropWhile (· ≤ position) }

/-- Passes the first unread position. -/
def next (occurrences : Occurrences) : Occurrences :=
  { occurrences with unread := occurrences.unread.tail }

/-- Begins again behind a given position. -/
def restart (position : Nat) (occurrences : Occurrences) : Occurrences :=
  (ofPositions occurrences.all).skipTo position

end Occurrences

/-- Continues a chain whose last position is `last` through the operands that follow: each gives its
first unread position behind the one before, which must not be farther than `distance`. The result
is the last position of the chain and the operands standing on it. -/
def chain (distance : Nat) (last : Nat) : List Occurrences → Option (Nat × List Occurrences)
  | [] => some (last, [])
  | operand :: later =>
      let operand := operand.skipTo last
      match operand.unread with
      | [] => none
      | position :: _ =>
          if distance < position - last then none
          else (chain distance position later).map fun (last, later) => (last, operand :: later)

/-- The last positions of the chains that begin at the given positions of the first operand. A chain
uses up the positions on it; where none begins, the other operands begin again behind the next
position of the first one. -/
def chainEnds (distance : Nat) : List Nat → List Occurrences → List Nat
  | [], _ => []
  | anchor :: anchors, others =>
      match chain distance anchor others with
      | some (last, others) => last :: chainEnds distance anchors (others.map Occurrences.next)
      | none =>
          match anchors with
          | [] => []
          | next :: _ => chainEnds distance anchors (others.map (Occurrences.restart next))

/-- The positions of an ordered match of two or more operands with the given positions. -/
def nearPositions (distance : Nat) : List (List Nat) → List Nat
  | [] => []
  | first :: others => chainEnds distance first (others.map Occurrences.ofPositions)

/-- The greatest positions of the spans that hold an unread position of every operand and fewer than
`size` positions in all. A span uses up the positions that it is made of; where the first unread
positions lie too far apart, the leftmost of them is passed. A span of a single position does not
count. -/
def spanEnds (size : Nat) : Nat → List (List Nat) → List Nat
  | 0, _ => []
  | rounds + 1, unread =>
      match unread.mapM List.head? with
      | none => []
      | some heads =>
          match heads.min?, heads.max? with
          | some left, some right =>
              if left < right && right - left < size then
                right :: spanEnds size rounds (unread.map List.tail)
              else spanEnds size rounds (unread.modify (heads.idxOf left) List.tail)
          | _, _ => []

/-- The positions of an unordered match of two or more operands with the given positions. Each round
uses up a position. -/
def windowPositions (size : Nat) (positions : List (List Nat)) : List Nat :=
  spanEnds size (positions.flatten.length + 1) positions

end Retrieval
