/-!
# JSON values

The values of a JSON document as they are written: texts keep their escapes, since only a text that
is used has to be well-formed, and numbers keep nothing, since a collection holds none.
-/

namespace Retrieval.Json

/-- A part of a written text. -/
inductive Piece where
  /-- A byte that stands for itself or is named by a short escape. -/
  | byte (value : UInt8)
  /-- A code unit written with four hexadecimal digits. -/
  | unit (value : Nat)
deriving DecidableEq, Repr

/-- A written text. -/
abbrev WrittenText := List Piece

/-- A JSON value. -/
inductive Value where
  | null
  | bool (value : Bool)
  | number
  | text (written : WrittenText)
  | array (elements : List Value)
  | object (members : List (WrittenText × Value))

namespace WrittenText

/-- The bytes of a code point in UTF-8. -/
def encodePoint (point : Nat) : List UInt8 :=
  (Char.ofNat point).toString.toUTF8.toList

/-- The bytes that a written text stands for. A code point beyond 16 bits is written as a high and a
low surrogate; a surrogate alone stands for nothing. -/
def bytes? : WrittenText → Option (List UInt8)
  | [] => some []
  | .byte value :: later => (bytes? later).map (value :: ·)
  | .unit high :: .unit low :: later =>
      if 0xD800 ≤ high ∧ high < 0xDC00 then
        if 0xDC00 ≤ low ∧ low < 0xE000 then
          (bytes? later).map
            (encodePoint (0x10000 + (high - 0xD800) * 0x400 + (low - 0xDC00)) ++ ·)
        else none
      else if 0xDC00 ≤ high ∧ high < 0xE000 then none
      else (bytes? (.unit low :: later)).map (encodePoint high ++ ·)
  | .unit value :: later =>
      if 0xD800 ≤ value ∧ value < 0xE000 then none
      else (bytes? later).map (encodePoint value ++ ·)

/-- The text, if it is well-formed. -/
def decode? (written : WrittenText) : Option String := do
  let bytes ← bytes? written
  String.fromUTF8? ⟨bytes.toArray⟩

end WrittenText

end Retrieval.Json
