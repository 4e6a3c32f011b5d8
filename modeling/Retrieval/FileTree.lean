import Retrieval.Host

/-!
# File trees

A file tree holds the bytes of files by their places, together with the text that has been printed.
The directories are the places above files, and the top with all that lies above it. A path is
followed name by name: every name but the last has to lead to a directory.
-/

namespace Retrieval

/-- The names that lead from the top of a tree to a file or directory. Two dots lead one step up; the
root of all paths has the slash as its name. -/
abbrev Place := List String

/-- Files as a value. -/
structure FileTree where
  /-- The bytes of the files. -/
  files : List (Place × ByteArray)
  /-- The text that has been printed. -/
  printed : String

/-- What stands at a place. -/
inductive Entry where
  /-- A file with its bytes. -/
  | file (bytes : ByteArray)
  /-- A directory. -/
  | directory
  /-- Nothing. -/
  | absent

namespace FileTree

/-- The tree without files. -/
def empty : FileTree := ⟨[], ""⟩

/-- The root of all paths. -/
def root : Place := ["/"]

/-- The place is the top, or lies above it. -/
def isTop (place : Place) : Bool :=
  place = root || place.all (· = "..")

/-- A directory stands at the place: a file lies below it, or it is the top or above the top. -/
def hasDirectory (tree : FileTree) (place : Place) : Bool :=
  isTop place || tree.files.any fun (file, _) => place.isPrefixOf file && file ≠ place

/-- What stands at a place. -/
def entry (tree : FileTree) (place : Place) : Entry :=
  match tree.files.lookup place with
  | some bytes => .file bytes
  | none => if tree.hasDirectory place then .directory else .absent

/-- Sets the bytes of the file at a place. -/
def write (tree : FileTree) (place : Place) (bytes : ByteArray) : FileTree :=
  { tree with files := (place, bytes) :: tree.files.filter fun (file, _) => file ≠ place }

/-- The place that a name leads to from a directory. -/
def step (place : Place) (name : String) : Place :=
  if name = "" || name = "." then place
  else if name = ".." then
    if place = root then root
    else if isTop place then place ++ [name]
    else place.dropLast
  else place ++ [name]

/-- The place that names lead to, where each of them is to be followed from a directory. -/
def follow (tree : FileTree) : Place → List String → Except FileError Place
  | place, [] => .ok place
  | place, name :: names =>
      match tree.entry place with
      | .directory =>
          if maximalNameLength < name.utf8ByteSize then .error .nameTooLong
          else follow tree (step place name) names
      | .file _ => .error .notADirectory
      | .absent => .error .notFound

/-- The names of a path. A path that ends in a slash ends in an empty name, which stays in place. -/
def names (path : FilePath) : List String := path.splitOn "/"

/-- The place where a path starts. -/
def start (path : FilePath) : Place :=
  if path.startsWith "/" then root else []

/-- Refuses what no system takes for a path. -/
def checkPath (path : FilePath) : Except FileError Unit :=
  if path.toList.contains '\x00' then .error .nameWithNull
  else if path.isEmpty then .error .notFound
  else if maximalPathLength < path.utf8ByteSize then .error .nameTooLong
  else .ok ()

/-- The place of a path and what stands there. -/
def find (tree : FileTree) (path : FilePath) : Except FileError (Place × Entry) := do
  checkPath path
  let place ← tree.follow (start path) (names path)
  return (place, tree.entry place)

/-- The bytes of the file at a path. -/
def read (tree : FileTree) (path : FilePath) : Except FileError ByteArray := do
  match (← tree.find path).2 with
  | .file bytes => return bytes
  | .directory => .error .isADirectory
  | .absent => .error .notFound

/-- The place of a file that is to be written, and the bytes that stand there. A path that ends in a
slash or a dot cannot name a file. -/
def openForWriting (tree : FileTree) (path : FilePath) :
    Except FileError (Place × Option ByteArray) := do
  checkPath path
  let backwards := (names path).reverse
  match backwards.dropWhile String.isEmpty with
  | [] => .error .isADirectory
  | last :: above =>
      let parent ← tree.follow (start path) above.reverse
      match tree.entry parent with
      | .file _ => .error .notADirectory
      | .absent => .error .notFound
      | .directory =>
          if backwards.head? = some "" || last = "." || last = ".." then .error .isADirectory
          else if maximalNameLength < last.utf8ByteSize then .error .nameTooLong
          else
            match tree.entry (parent ++ [last]) with
            | .directory => .error .isADirectory
            | .file bytes => return (parent ++ [last], some bytes)
            | .absent => return (parent ++ [last], none)

/-- The tree with an empty file at a path. -/
def create (tree : FileTree) (path : FilePath) : Except FileError FileTree := do
  let (place, _) ← tree.openForWriting path
  return tree.write place .empty

/-- The tree with a text added to the file at a path. -/
def append (tree : FileTree) (path : FilePath) (text : String) : Except FileError FileTree := do
  let (place, bytes) ← tree.openForWriting path
  return tree.write place (bytes.getD .empty ++ text.toUTF8)

/-- The tree with a text written into the file at a path from a position on. -/
def writeAt (tree : FileTree) (path : FilePath) (position : Nat) (text : String) :
    Except FileError FileTree := do
  let (place, bytes) ← tree.openForWriting path
  return tree.write place (overwrite (bytes.getD .empty) position text.toUTF8)

/-- Changes the tree unless the change fails. -/
def change (edit : FileTree → Except FileError FileTree) :
    StateM FileTree (Except FileError Unit) := do
  match edit (← get) with
  | .ok tree => set tree; return .ok ()
  | .error cause => return .error cause

instance : Host (StateM FileTree) where
  isDirectory path := do
    match (← get).find path with
    | .ok (_, .directory) => return true
    | _ => return false
  read path := return (← get).read path
  create path := change fun tree => tree.create path
  append path text := change fun tree => tree.append path text
  writeAt path position text := change fun tree => tree.writeAt path position text
  print text := modify fun tree => { tree with printed := tree.printed ++ text }

end FileTree

end Retrieval
