import Retrieval.File

/-!
# Hosts

A command reads and writes files and prints text. It does so through the operations of a host, so
that it can run on a real system as well as on a file tree that is only a value.
-/

namespace Retrieval

/-- The operations of the system that a command runs on. -/
class Host (m : Type → Type) where
  /-- A directory stands at the path. -/
  isDirectory : FilePath → m Bool
  /-- The bytes of a file. -/
  read : FilePath → m (Except FileError ByteArray)
  /-- Makes an empty file, in the place of the file that stood there. -/
  create : FilePath → m (Except FileError Unit)
  /-- Adds a text at the end of a file, which is made if it does not exist. -/
  append : FilePath → String → m (Except FileError Unit)
  /-- Writes a text into a file from a position on, which is given in bytes. -/
  writeAt : FilePath → Nat → String → m (Except FileError Unit)
  /-- Prints a text. -/
  print : String → m Unit

namespace Host

variable {m : Type → Type} [Monad m] [Host m]

/-- The text of a file. -/
def readText (path : FilePath) : m (Except FileError String) := do
  match ← Host.read path with
  | .error cause => return .error cause
  | .ok bytes =>
      match String.fromUTF8? bytes with
      | some text => return .ok text
      | none => return .error .notText

end Host

end Retrieval
