/-!
# Buffers

A text that goes to a file part by part is gathered on its way, so that the file is written seldom. A
part that has no room releases the text that waits, and a part as large as the buffer goes on at once.
No part is lost or moved, and what waits never exceeds the capacity.
-/

namespace Retrieval

/-- A text on its way to a file. -/
structure Buffer where
  /-- The text that goes to the file now. -/
  released : String
  /-- The text that waits. -/
  waiting : String

namespace Buffer

/-- The number of bytes that can wait. -/
def capacity : Nat := 8192

/-- The whole text, in its order. -/
def text (buffer : Buffer) : String :=
  buffer.released ++ buffer.waiting

/-- Releases the text that waits. -/
def release (buffer : Buffer) : Buffer :=
  ⟨buffer.text, ""⟩

/-- Takes up a part. -/
def add (buffer : Buffer) (part : String) : Buffer :=
  let ready :=
    if capacity < buffer.waiting.utf8ByteSize + part.utf8ByteSize then buffer.release else buffer
  let next : Buffer := ⟨ready.released, ready.waiting ++ part⟩
  if capacity ≤ part.utf8ByteSize then next.release else next

/-- Takes up parts in their order. -/
def addAll (buffer : Buffer) (parts : List String) : Buffer :=
  parts.foldl add buffer

@[simp]
theorem text_release (buffer : Buffer) : buffer.release.text = buffer.text := by
  simp [release, text]

@[simp]
theorem text_add (buffer : Buffer) (part : String) :
    (buffer.add part).text = buffer.text ++ part := by
  unfold add
  split <;> split <;> simp [release, text, String.append_assoc]

@[simp]
theorem text_addAll (buffer : Buffer) (parts : List String) :
    (buffer.addAll parts).text = buffer.text ++ String.join parts := by
  induction parts generalizing buffer with
  | nil => simp [addAll]
  | cons part later ih =>
      simpa [addAll, String.append_assoc] using ih (buffer.add part)

theorem waiting_add_le (buffer : Buffer) (part : String) :
    (buffer.add part).waiting.utf8ByteSize ≤ capacity := by
  unfold add
  split <;> split <;> simp [release] <;> omega

end Buffer

end Retrieval
