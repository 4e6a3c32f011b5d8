import Retrieval.Number.Numeral

/-!
# Query operators

The operators of the query language fall into two kinds. A list operator merges the inverted lists
of its operands into one; a scoring operator combines the scores of its operands.
-/

namespace Retrieval

/-- An operator that makes one inverted list of the lists of its operands. -/
inductive ListOperator where
  /-- The occurrences of any operand. -/
  | syn
  /-- The operands in order, each at most `distance` positions after the one before. -/
  | near (distance : Nat)
  /-- The operands in any order, within fewer than `size` positions. -/
  | window (size : Nat)
deriving DecidableEq, Repr

/-- An operator that combines scores. -/
inductive ScoringOperator where
  /-- The documents of all operands. -/
  | and
  /-- The documents of any operand. -/
  | or
  /-- The documents of no operand; they are not enumerated. -/
  | not
  /-- The sum of the scores of the operands. -/
  | sum
  /-- The weighted product of the scores of the operands. -/
  | wand
  /-- The weighted sum of the scores of the operands. -/
  | wsum
  /-- The score of an inverted list. -/
  | score
deriving DecidableEq, Repr

/-- A query operator. -/
inductive Operator where
  /-- An operator on inverted lists. -/
  | list (operator : ListOperator)
  /-- An operator on scores. -/
  | scoring (operator : ScoringOperator)
deriving DecidableEq, Repr

namespace ListOperator

/-- The name without a distance. -/
def name : ListOperator → String
  | .syn => "#syn"
  | .near _ => "#near"
  | .window _ => "#window"

/-- The name as it is written in a query. -/
def label : ListOperator → String
  | .syn => "#syn"
  | .near distance => "#near/" ++ Number.writeNat distance
  | .window size => "#window/" ++ Number.writeNat size

end ListOperator

namespace ScoringOperator

/-- The name. -/
def name : ScoringOperator → String
  | .and => "#and"
  | .or => "#or"
  | .not => "#not"
  | .sum => "#sum"
  | .wand => "#wand"
  | .wsum => "#wsum"
  | .score => "#score"

end ScoringOperator

namespace Operator

/-- The name without a distance. -/
def name : Operator → String
  | .list operator => operator.name
  | .scoring operator => operator.name

/-- The name as it is written in a query. -/
def label : Operator → String
  | .list operator => operator.label
  | .scoring operator => operator.name

/-- The operands merge into an inverted list. -/
def isList : Operator → Bool
  | .list _ => true
  | .scoring _ => false

/-- A weight is written before each operand. -/
def isWeighted : Operator → Bool
  | .scoring .wand => true
  | .scoring .wsum => true
  | _ => false

end Operator

end Retrieval
