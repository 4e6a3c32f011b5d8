/-!
# Sets of characters given by ranges of code points

The character classes of the text modules are tables of closed ranges of code points, in ascending
order. Membership walks the table and stops at the first range that begins beyond the character.
-/

namespace Retrieval.Text

/-- A set of characters, given by closed ranges of code points in ascending order. -/
abbrev CodeRanges := List (Nat × Nat)

namespace CodeRanges

/-- The character lies in one of the ranges. -/
def contains : CodeRanges → Char → Bool
  | [], _ => false
  | (first, last) :: later, character =>
      if character.toNat < first then false
      else if character.toNat ≤ last then true
      else contains later character

end CodeRanges

end Retrieval.Text
