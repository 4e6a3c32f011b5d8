import Retrieval.Shell

/-!
# The program

The command line on a real system: files are those of the system, texts go to the standard output, and
the report of a failure goes to the standard error.
-/

namespace Retrieval

/-- The reason of a failed file operation. -/
def FileError.ofSystem : IO.Error → FileError
  | .noFileOrDirectory .. => .notFound
  | .inappropriateType _ 20 _ => .notADirectory
  | .inappropriateType _ 21 _ => .isADirectory
  | cause => .other cause.toString

/-- Carries out a file operation. -/
def attemptOnSystem {α : Type} (action : IO α) : IO (Except FileError α) := do
  try
    return .ok (← action)
  catch cause =>
    return .error (.ofSystem cause)

/-- Adds a text at the end of a file. -/
def appendOnSystem (path : FilePath) (text : String) : IO Unit := do
  let handle ← IO.FS.Handle.mk path .append
  handle.putStr text

instance : Host IO where
  isDirectory path := do
    try
      (← IO.FS.realPath path).isDir
    catch _ =>
      return false
  read path := attemptOnSystem (IO.FS.readBinFile path)
  create path := attemptOnSystem (IO.FS.writeFile path "")
  append path text := attemptOnSystem (appendOnSystem path text)
  writeAt path position text := attemptOnSystem do
    let size := (← (← IO.FS.realPath path).metadata).byteSize
    if size.toNat ≤ position then appendOnSystem path text
    else
      let content ← IO.FS.readBinFile path
      IO.FS.writeBinFile path (overwrite content position text.toUTF8)
  print text := IO.print text

/-- The terminal shows colors: it is named, it is not a dumb one, and colors are not turned off. -/
def showsColors : IO Bool := do
  let terminal ← IO.getEnv "TERM"
  let refused ← IO.getEnv "NO_COLOR"
  return refused.isNone && terminal.any (· ≠ "dumb")

end Retrieval

def main (arguments : List String) : IO UInt32 := do
  let colors ← Retrieval.showsColors
  let exit ← Retrieval.Shell.run colors arguments
  IO.eprint exit.report
  return exit.code.toUInt32
