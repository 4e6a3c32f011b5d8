/-!
# Files

The reasons for which a file cannot be read or written, with their wording, the paths of files, and the
change of bytes in the middle of a file.
-/

namespace Retrieval

/-- Why a file cannot be read or written. -/
inductive FileError where
  /-- The file, or a directory on its path, does not exist. -/
  | notFound
  /-- A file stands on the path where a directory is needed. -/
  | notADirectory
  /-- A directory stands where a file is needed. -/
  | isADirectory
  /-- A name on the path is too long, or the path is. -/
  | nameTooLong
  /-- A path holds the character with the code zero. -/
  | nameWithNull
  /-- The content is not a text. -/
  | notText
  /-- Another failure, in the words of the system. -/
  | other (text : String)
deriving DecidableEq, Repr

namespace FileError

/-- The wording of a failure. -/
def message : FileError → String
  | .notFound => "No such file or directory (os error 2)"
  | .notADirectory => "Not a directory (os error 20)"
  | .isADirectory => "Is a directory (os error 21)"
  | .nameTooLong => "File name too long (os error 36)"
  | .nameWithNull => "file name contained an unexpected NUL byte"
  | .notText => "stream did not contain valid UTF-8"
  | .other text => text

end FileError

/-- A name in a file system. -/
abbrev FilePath := String

/-- The greatest length of a path in bytes. -/
def maximalPathLength : Nat := 4095

/-- The greatest length of a name on a path in bytes. -/
def maximalNameLength : Nat := 255

/-- The path of an entry of a directory. -/
def FilePath.join (directory : FilePath) (entry : String) : FilePath :=
  if directory.isEmpty || directory.endsWith "/" then directory ++ entry
  else directory ++ "/" ++ entry

/-- The content of a file with bytes written over it from a position on. -/
def overwrite (content : ByteArray) (position : Nat) (bytes : ByteArray) : ByteArray :=
  content.extract 0 position ++ bytes ++ content.extract (position + bytes.size) content.size

end Retrieval
