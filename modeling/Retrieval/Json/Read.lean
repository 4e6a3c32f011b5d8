import Retrieval.Json.Value

/-!
# Reading JSON

A document is read from its bytes. Between tokens there may be blanks, and nothing follows the value
but blanks. Each function returns the bytes that it leaves.
-/

namespace Retrieval.Json

/-- The bytes after the blanks at the beginning. -/
def skipBlanks : List UInt8 → List UInt8 :=
  List.dropWhile fun byte => byte = 0x20 || byte = 0x0A || byte = 0x0D || byte = 0x09

/-- The byte is a decimal digit. -/
def isDigit (byte : UInt8) : Bool := 0x30 ≤ byte && byte ≤ 0x39

/-- The value of a hexadecimal digit. -/
def hexValue? (byte : UInt8) : Option Nat :=
  if isDigit byte then some (byte.toNat - 0x30)
  else if 0x61 ≤ byte ∧ byte ≤ 0x66 then some (byte.toNat - 0x61 + 10)
  else if 0x41 ≤ byte ∧ byte ≤ 0x46 then some (byte.toNat - 0x41 + 10)
  else none

/-- The bytes after one or more digits. -/
def readDigits? : List UInt8 → Option (List UInt8)
  | byte :: later => if isDigit byte then some (later.dropWhile isDigit) else none
  | [] => none

/-- The bytes after an exponent, if one begins here. -/
def readExponent? : List UInt8 → Option (List UInt8)
  | byte :: later =>
      if byte = 0x65 || byte = 0x45 then
        match later with
        | sign :: digits => readDigits? (if sign = 0x2B || sign = 0x2D then digits else later)
        | [] => none
      else some (byte :: later)
  | [] => some []

/-- The bytes after a fraction and an exponent, if they begin here. -/
def readFraction? : List UInt8 → Option (List UInt8)
  | 0x2E :: later => (readDigits? later).bind readExponent?
  | bytes => readExponent? bytes

/-- The bytes after a number without sign: no digit follows a zero at its beginning. -/
def readNumber? : List UInt8 → Option (List UInt8)
  | 0x30 :: later =>
      if later.head?.any isDigit then none else readFraction? later
  | bytes => (readDigits? bytes).bind readFraction?

/-- The byte that a short escape names. -/
def escapedByte? (byte : UInt8) : Option UInt8 :=
  match byte with
  | 0x22 => some 0x22
  | 0x5C => some 0x5C
  | 0x2F => some 0x2F
  | 0x62 => some 0x08
  | 0x66 => some 0x0C
  | 0x6E => some 0x0A
  | 0x72 => some 0x0D
  | 0x74 => some 0x09
  | _ => none

/-- The value of four hexadecimal digits. -/
def hexUnit? (first second third fourth : UInt8) : Option Nat := do
  let first ← hexValue? first
  let second ← hexValue? second
  let third ← hexValue? third
  let fourth ← hexValue? fourth
  return ((first * 16 + second) * 16 + third) * 16 + fourth

/-- The text that follows an opening quote. Control characters have to be escaped. -/
def readText? : List UInt8 → Option (WrittenText × List UInt8)
  | [] => none
  | 0x22 :: later => some ([], later)
  | 0x5C :: 0x75 :: first :: second :: third :: fourth :: later => do
      let value ← hexUnit? first second third fourth
      let (written, later) ← readText? later
      return (.unit value :: written, later)
  | 0x5C :: escaped :: later => do
      let value ← escapedByte? escaped
      let (written, later) ← readText? later
      return (.byte value :: written, later)
  | byte :: later => do
      guard (0x20 ≤ byte && byte ≠ 0x5C)
      let (written, later) ← readText? later
      return (.byte byte :: written, later)

/-- The bytes after a given word. -/
def readWord? : List UInt8 → List UInt8 → Option (List UInt8)
  | [], bytes => some bytes
  | expected :: word, byte :: later => if byte = expected then readWord? word later else none
  | _ :: _, [] => none

/-- The key and the colon of a member. -/
def readKey? (bytes : List UInt8) : Option (WrittenText × List UInt8) :=
  match skipBlanks bytes with
  | 0x22 :: later => do
      let (key, later) ← readText? later
      match skipBlanks later with
      | 0x3A :: later => return (key, later)
      | _ => none
  | _ => none

mutual

/-- Reads a value of at most `size` bytes, blanks before it included. -/
def readValue? : Nat → List UInt8 → Option (Value × List UInt8)
  | 0, _ => none
  | size + 1, bytes =>
      match skipBlanks bytes with
      | 0x6E :: later => (readWord? "ull".toUTF8.toList later).map (.null, ·)
      | 0x74 :: later => (readWord? "rue".toUTF8.toList later).map (.bool true, ·)
      | 0x66 :: later => (readWord? "alse".toUTF8.toList later).map (.bool false, ·)
      | 0x22 :: later => (readText? later).map fun (written, later) => (.text written, later)
      | 0x2D :: later => (readNumber? later).map (.number, ·)
      | 0x5B :: later =>
          match skipBlanks later with
          | 0x5D :: later => some (.array [], later)
          | later => (readElements? size later).map fun (elements, later) =>
              (.array elements, later)
      | 0x7B :: later =>
          match skipBlanks later with
          | 0x7D :: later => some (.object [], later)
          | later => (readMembers? size later).map fun (members, later) =>
              (.object members, later)
      | later => (readNumber? later).map (.number, ·)

/-- Reads the elements of an array and its closing bracket. -/
def readElements? : Nat → List UInt8 → Option (List Value × List UInt8)
  | 0, _ => none
  | size + 1, bytes => do
      let (element, later) ← readValue? size bytes
      match skipBlanks later with
      | 0x5D :: later => return ([element], later)
      | 0x2C :: later =>
          let (elements, later) ← readElements? size later
          return (element :: elements, later)
      | _ => none

/-- Reads the members of an object and its closing brace. -/
def readMembers? : Nat → List UInt8 → Option (List (WrittenText × Value) × List UInt8)
  | 0, _ => none
  | size + 1, bytes => do
      let (key, later) ← readKey? bytes
      let (value, later) ← readValue? size later
      match skipBlanks later with
      | 0x7D :: later => return ([(key, value)], later)
      | 0x2C :: later =>
          let (members, later) ← readMembers? size later
          return ((key, value) :: members, later)
      | _ => none

end

/-- The value of a document. -/
def read? (bytes : List UInt8) : Option Value := do
  let (value, later) ← readValue? (bytes.length + 1) bytes
  guard (skipBlanks later).isEmpty
  return value

end Retrieval.Json
