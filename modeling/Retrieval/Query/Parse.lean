import Retrieval.Analyzer
import Retrieval.Query.Token
import Retrieval.Query.Tree
import Retrieval.Text.Blank

/-!
# Reading queries

A query text is read as the operands of a default operator. Reading goes over the tokens once with a
stack of the operators that are still open; an operator that takes weights holds the weight that
waits for its operand. A word beginning with a number sign opens an operator, any other word stands
for the terms that analysis finds in it.
-/

namespace Retrieval

/-- Why a text is no query, or a line no line of a query file. -/
inductive QueryError where
  /-- The part after the point names no field. -/
  | unknownField (token : String)
  /-- The distance is missing or no number. -/
  | malformedDistance (token : String)
  /-- No operator has this name. -/
  | unknownOperator (token : String)
  /-- A weight is due, and the token is none. -/
  | expectedWeight (token : String)
  /-- An operand of a weighted operator has no weight. -/
  | missingWeight (operator : Operator)
  /-- A weight is followed by no operand. -/
  | danglingWeight (operator : Operator)
  /-- A scoring operator stands among the operands of a list operator. -/
  | invalidOperand (operator operand : Operator)
  /-- The parentheses do not match. -/
  | unbalancedParentheses (query : String)
  /-- Tokens follow after the last closing parenthesis. -/
  | trailingTokens (query : String)
  /-- A line has no query number. -/
  | missingNumber (line : String)
deriving DecidableEq, Repr

namespace QueryError

/-- The wording of a failure. -/
def message : QueryError → String
  | .unknownField token => "unknown field in '" ++ token ++ "'"
  | .malformedDistance token => "malformed proximity distance in '" ++ token ++ "'"
  | .unknownOperator token => "unknown query operator '" ++ token ++ "'"
  | .expectedWeight token => "expected a weight, found '" ++ token ++ "'"
  | .missingWeight operator => "operand of " ++ operator.name ++ " has no weight"
  | .danglingWeight operator => "weight without an operand in " ++ operator.name
  | .invalidOperand operator operand =>
      operator.name ++ " cannot take the scoring operator " ++ operand.name ++ " as an argument"
  | .unbalancedParentheses query => "unbalanced parentheses in '" ++ query ++ "'"
  | .trailingTokens query => "unconsumed tokens after the end of '" ++ query ++ "'"
  | .missingNumber line => "missing ':' in query line '" ++ line ++ "'"

end QueryError

namespace Operator

/-- The greatest distance or window size. -/
def maximalDistance : Nat := 4294967295

/-- The number that a text of digits writes, if it is a distance. -/
def distance? (digits : List Char) : Option Nat :=
  if digits.isEmpty then none
  else (Number.digitsValue? digits).filter (· ≤ maximalDistance)

/-- The operator that a word beginning with a number sign names, in letters of any case. -/
def ofWord (word : String) : Except QueryError Operator :=
  let malformed : Except QueryError Operator := .error (.malformedDistance word)
  match (Text.lowerAscii word).toList with
  | ['#', 'a', 'n', 'd'] => .ok (.scoring .and)
  | ['#', 'o', 'r'] => .ok (.scoring .or)
  | ['#', 's', 'u', 'm'] => .ok (.scoring .sum)
  | ['#', 's', 'y', 'n'] => .ok (.list .syn)
  | ['#', 'w', 'a', 'n', 'd'] => .ok (.scoring .wand)
  | ['#', 'w', 's', 'u', 'm'] => .ok (.scoring .wsum)
  | '#' :: 'n' :: 'e' :: 'a' :: 'r' :: '/' :: digits =>
      match distance? digits with
      | some distance => .ok (.list (.near distance))
      | none => malformed
  | '#' :: 'n' :: 'e' :: 'a' :: 'r' :: _ => malformed
  | '#' :: 'w' :: 'i' :: 'n' :: 'd' :: 'o' :: 'w' :: '/' :: digits =>
      match distance? digits with
      | some size => .ok (.list (.window size))
      | none => malformed
  | '#' :: 'w' :: 'i' :: 'n' :: 'd' :: 'o' :: 'w' :: _ => malformed
  | _ => .error (.unknownOperator word)

end Operator

/-- An operator that is still open. -/
structure OpenOperator (ω : Type) where
  /-- The operator. -/
  operator : Operator
  /-- The operands read so far, the last one first. -/
  operands : List (Query ω)
  /-- Their weights, the last one first. -/
  weights : List ω
  /-- The weight that waits for its operand. -/
  pending : Option ω

namespace OpenOperator

variable {ω : Type} [Arithmetic ω]

/-- An operator whose operands have not been read. -/
def start (operator : Operator) : OpenOperator ω := ⟨operator, [], [], none⟩

/-- The next word is a weight. -/
def expectsWeight (frame : OpenOperator ω) : Bool :=
  frame.operator.isWeighted && frame.pending.isNone

/-- The query that the operator makes of its operands. -/
def close (frame : OpenOperator ω) : Query ω :=
  .apply frame.operator frame.operands.reverse frame.weights.reverse

/-- The form in which a query is an operand: a list operator takes lists only, a scoring operator
takes the score of a list. -/
def operand (operator : Operator) (query : Query ω) : Except QueryError (Query ω) :=
  match query with
  | .term .. => .ok (if operator.isList then query else query.score)
  | .apply inner .. =>
      if operator.isList then
        if inner.isList then .ok query else .error (.invalidOperand operator inner)
      else .ok (if inner.isList then query.score else query)

/-- Adds an operand with its weight. -/
def push (frame : OpenOperator ω) (query : Query ω) : Except QueryError (OpenOperator ω) := do
  let query ← operand frame.operator query
  let weight ←
    if frame.operator.isWeighted then
      match frame.pending with
      | some weight => .ok weight
      | none => .error (.missingWeight frame.operator)
    else .ok 1
  return { frame with operands := query :: frame.operands, weights := weight :: frame.weights }

/-- Adds operands that share a weight, and forgets it. -/
def pushAll (frame : OpenOperator ω) (queries : List (Query ω)) :
    Except QueryError (OpenOperator ω) := do
  let frame ← queries.foldlM push frame
  return { frame with pending := none }

end OpenOperator

/-- How far the reading of a query has come. -/
inductive Reading (ω : Type) where
  /-- The operators that are still open, the innermost first. -/
  | inside (frames : List (OpenOperator ω))
  /-- The outermost operator has been closed. -/
  | complete (query : Query ω)

namespace Query

variable {ω : Type} [Arithmetic ω]

/-- The weight that a word writes: a finite number that is not negative. -/
def readWeight (word : String) : Except QueryError ω :=
  match (Arithmetic.read? word : Option ω) with
  | some weight =>
      if Arithmetic.isFinite weight && 0 ≤ weight then .ok weight
      else .error (.expectedWeight word)
  | none => .error (.expectedWeight word)

/-- The terms that a word stands for: its part before the first point, analyzed, in the field that
follows the point. -/
def termsOfWord (analyzer : Analyzer) (word : String) : Except QueryError (List (Query ω)) :=
  match Text.cut '.' word with
  | none => .ok ((analyzer.analyze word).map fun term => .term term .body)
  | some (text, name) =>
      match Field.ofQuery? name with
      | some field => .ok ((analyzer.analyze text).map fun term => .term term field)
      | none => .error (.unknownField word)

/-- Reads a closing parenthesis: the innermost operator becomes an operand of the next one. -/
def readClose (text : String) : List (OpenOperator ω) → Except QueryError (Reading ω)
  | [] => .error (.unbalancedParentheses text)
  | frame :: frames =>
      if frame.pending.isSome then .error (.danglingWeight frame.operator)
      else match frames with
        | [] => .ok (.complete frame.close)
        | parent :: outer => do
            let parent ← parent.pushAll [frame.close]
            return .inside (parent :: outer)

/-- Reads a word where no weight is due. -/
def readOperand (analyzer : Analyzer) (text word : String) (frames : List (OpenOperator ω)) :
    Except QueryError (Reading ω) :=
  if word.toList.head? = some '#' then do
    let operator ← Operator.ofWord word
    return .inside (.start operator :: frames)
  else match frames with
    | [] => .error (.unbalancedParentheses text)
    | frame :: outer => do
        let terms ← termsOfWord analyzer word
        let frame ← frame.pushAll terms
        return .inside (frame :: outer)

/-- Reads a word. -/
def readWord (analyzer : Analyzer) (text word : String) (frames : List (OpenOperator ω)) :
    Except QueryError (Reading ω) :=
  match frames with
  | frame :: outer =>
      if frame.expectsWeight then do
        let weight ← readWeight word
        return .inside ({ frame with pending := some weight } :: outer)
      else readOperand analyzer text word (frame :: outer)
  | [] => readOperand analyzer text word []

/-- Reads a token of the text. -/
def readToken (analyzer : Analyzer) (text : String) (reading : Reading ω) (token : Token) :
    Except QueryError (Reading ω) :=
  match reading, token with
  | .complete _, _ => .error (.trailingTokens text)
  | .inside frames, .close => readClose text frames
  | .inside frames, .word word => readWord analyzer text word frames

/-- The query that a text writes in full, its outermost operator included. -/
def ofText (analyzer : Analyzer) (text : String) : Except QueryError (Query ω) := do
  match ← (Token.scan text).foldlM (readToken analyzer text) (.inside []) with
  | .complete query => return query
  | .inside _ => .error (.unbalancedParentheses text)

/-- The text in which a query stands as the operands of a default operator. -/
def wrap (operator : Operator) (text : String) : String :=
  operator.label ++ "(" ++ text ++ ")"

/-- The query that a text writes as the operands of a default operator. -/
def parse (operator : Operator) (analyzer : Analyzer) (text : String) :
    Except QueryError (Query ω) :=
  ofText analyzer (wrap operator text)

end Query

end Retrieval
