import Retrieval.Cursor.Basic
import Retrieval.Model

/-!
# Finding matches

A scoring operator finds the next document on which it matches from where its operands stand. A
conjunction lets its operands leap over each other until they agree; the other operators take the
least document of any operand. The search goes down the tree level by level, as far as the tree is
high.
-/

namespace Retrieval

/-- How a row of cursors stands to a document. -/
inductive Agreement where
  /-- All of them stand on it. -/
  | agreed
  /-- One of them has come to its end. -/
  | exhausted
  /-- One of them stands on another document. -/
  | ahead (document : DocumentId)
deriving DecidableEq, Repr

namespace Cursor

variable {ω : Type}

/-- Moves cursors to a document, one after the other, until one does not come to stand on it.
`settle` lets a cursor find its match. -/
def meet (settle : Cursor ω → Cursor ω) (document : DocumentId) :
    List (Cursor ω) → Agreement × List (Cursor ω)
  | [] => (.agreed, [])
  | cursor :: later =>
      let cursor := settle (cursor.advanceTo document)
      match cursor.current? with
      | none => (.exhausted, cursor :: later)
      | some other =>
          if other = document then
            let (agreement, later) := meet settle document later
            (agreement, cursor :: later)
          else (.ahead other, cursor :: later)

/-- The next document on which a first cursor and all others agree, with the cursors as the search
leaves them. Each round moves the first cursor beyond a document, so as many rounds suffice as
documents are ahead of it. -/
def leapfrog (settle : Cursor ω → Cursor ω) :
    Nat → Cursor ω → List (Cursor ω) → Option DocumentId × List (Cursor ω)
  | 0, first, others => (none, first :: others)
  | rounds + 1, first, others =>
      let first := settle first
      match first.current? with
      | none => (none, first :: others)
      | some document =>
          match meet settle document others with
          | (.agreed, others) => (some document, first :: others)
          | (.exhausted, others) => (none, first :: others)
          | (.ahead other, others) => leapfrog settle rounds (first.advanceTo other) others

/-- The next document that all cursors have, and the cursors as the search leaves them. -/
def matchAll (settle : Cursor ω → Cursor ω) :
    List (Cursor ω) → Option DocumentId × List (Cursor ω)
  | [] => (none, [])
  | first :: others => leapfrog settle (first.remaining + 1) first others

/-- The next document that any cursor has, and the cursors as the search leaves them. -/
def matchAny (settle : Cursor ω → Cursor ω) (cursors : List (Cursor ω)) :
    Option DocumentId × List (Cursor ω) :=
  let cursors := cursors.map settle
  (earliest cursors, cursors)

/-- Lets a scoring operator find its match from its operands, if it does not know one. Operators
more than `levels` deep are left alone. -/
def settleWithin (soft : Bool) : Nat → Cursor ω → Cursor ω
  | levels + 1, .scoring operator operands weights none statistics =>
      let settle := settleWithin soft levels
      match operator with
      | .and | .wand =>
          let (found, operands) := if soft then matchAny settle operands else matchAll settle operands
          .scoring operator operands weights found statistics
      | .or | .sum | .wsum =>
          let (found, operands) := matchAny settle operands
          .scoring operator operands weights found statistics
      | .not => .scoring operator (operands.map settle) weights none statistics
      | .score =>
          match operands with
          | [] => .scoring operator [] weights none statistics
          | first :: others =>
              let first := settle first
              .scoring operator (first :: others) weights first.current? statistics
  | _, cursor => cursor

/-- Lets a cursor find its match from where it stands. -/
def settle (soft : Bool) (cursor : Cursor ω) : Cursor ω :=
  settleWithin soft cursor.height cursor

/-- A settled cursor matches: it stands on a document, or it is a negation none of whose operands
stands on one. -/
def isMatch : Cursor ω → Bool
  | .scoring .not operands _ _ _ => (earliest operands).isNone
  | cursor => cursor.current?.isSome

end Cursor

end Retrieval
