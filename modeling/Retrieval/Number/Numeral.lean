import Retrieval.Number.Shortest

/-!
# Written numbers

The texts of numbers: a decimal is written positionally, with the fewest digits that read back and
never with an exponent, or with a fixed number of places. It is read with an optional sign, point
and exponent; infinities and the undefined value have names. Natural numbers are read as digits after
an optional plus sign.
-/

namespace Retrieval.Number

/-- The text of a natural number. -/
def writeNat (number : Nat) : String :=
  String.ofList (Nat.toDigits 10 number)

/-- The digits with a point before the last `places` of them, padded so that a digit stands before
the point. -/
def withPoint (places : Nat) (digits : List Char) : List Char :=
  let padded := List.replicate (places + 1 - digits.length) '0' ++ digits
  let whole := padded.take (padded.length - places)
  if places = 0 then whole else whole ++ '.' :: padded.drop (padded.length - places)

namespace Decimal

/-- The positional text of a decimal. -/
def write (decimal : Decimal) : List Char :=
  Nat.toDigits 10 decimal.digits ++ List.replicate decimal.exponent.toNat '0'
    |> withPoint (-decimal.exponent).toNat

end Decimal

/-- The text of a number: positional, with the fewest digits that read back. -/
def writeFloat (number : Float) : String :=
  match Binary64.ofFloat number with
  | .undefined => "NaN"
  | .infinite negative => if negative then "-inf" else "inf"
  | .finite value =>
      let magnitude := if value.significand = 0 then ['0'] else (shortestDecimal value).write
      String.ofList (if value.negative then '-' :: magnitude else magnitude)

/-- The text of a number with the given number of places, a half going to the even neighbour. -/
def writeFixed (places : Nat) (number : Float) : String :=
  match Binary64.ofFloat number with
  | .undefined => "NaN"
  | .infinite negative => if negative then "-inf" else "inf"
  | .finite value =>
      let scaled := roundQuotient .toEven (value.numerator * Nat.pow 10 places) value.denominator
      let magnitude := withPoint places (Nat.toDigits 10 scaled)
      String.ofList (if value.negative then '-' :: magnitude else magnitude)

/-- The value of a decimal digit. -/
def digitValue? (character : Char) : Option Nat :=
  if '0' ≤ character ∧ character ≤ '9' then some (character.toNat - '0'.toNat) else none

/-- The number written by a list of decimal digits and nothing else. -/
def digitsValue? : List Char → Option Nat :=
  List.foldlM (fun value character => (digitValue? character).map (10 * value + ·)) 0

/-- The number written by a text of one or more digits, which a plus sign may precede, if it is at
most `limit`. -/
def readNat? (limit : Nat) (text : String) : Option Nat :=
  let digits := match text.toList with
    | '+' :: digits => digits
    | digits => digits
  if digits.isEmpty then none
  else (digitsValue? digits).filter (· ≤ limit)

/-- A text without its sign, and whether that sign is a minus. -/
def takeSign : List Char → Bool × List Char
  | '-' :: later => (true, later)
  | '+' :: later => (false, later)
  | characters => (false, characters)

/-- The value of an exponent: digits after an optional sign. -/
def exponentValue? (characters : List Char) : Option Int :=
  let (negative, digits) := takeSign characters
  if digits.isEmpty then none
  else (digitsValue? digits).map fun value => if negative then -(value : Int) else value

/-- The decimal written by digits, an optional point among them and an optional exponent. At least
one digit stands before the exponent. -/
def readDecimal? (characters : List Char) : Option Decimal := do
  let whole := characters.takeWhile Char.isDigit
  let later := characters.dropWhile Char.isDigit
  let (fraction, later) := match later with
    | '.' :: later => (later.takeWhile Char.isDigit, later.dropWhile Char.isDigit)
    | later => ([], later)
  guard !(whole.isEmpty && fraction.isEmpty)
  let exponent ← match later with
    | [] => some 0
    | 'e' :: later => exponentValue? later
    | 'E' :: later => exponentValue? later
    | _ => none
  let digits ← digitsValue? (whole ++ fraction)
  return ⟨digits, exponent - (fraction.length : Int)⟩

/-- The magnitude written by a text without sign: a decimal, or a name in letters of any case. -/
def readMagnitude? (characters : List Char) : Option Float :=
  match String.ofList (characters.map Char.toLower) with
  | "inf" | "infinity" => some (Float.ofBits 0x7FF0000000000000)
  | "nan" => some (Float.ofBits 0x7FF8000000000000)
  | _ => (readDecimal? characters).map fun decimal =>
      Float.ofScientific decimal.digits (decimal.exponent < 0) decimal.exponent.natAbs

/-- The number nearest to the one that the text writes. -/
def readFloat? (text : String) : Option Float :=
  let (negative, characters) := takeSign text.toList
  (readMagnitude? characters).map fun magnitude => if negative then -magnitude else magnitude

end Retrieval.Number
