/-!
# Files

What the programs ask of a file system: to read a whole text file and to write one. The questions
are asked through `FileAccess`, so that the same program runs on the machine's files and on a
`FileTree`, a file system that is a value.

## Main definitions

* `FileFault`: why a file cannot be read or written.
* `FileAccess`: reading and writing, in some monad.
* `FileTree`: directories and files below a directory in which the programs run.
* `FileTree.access`: reading and writing a tree.
-/

namespace HttpSuite

/-- The kind of trouble with a file. -/
inductive FileFault.Kind where
  | missing
  | denied
  | other
deriving DecidableEq, Repr

/-- Why a file cannot be read or written: the kind of trouble, and the system's wording. -/
structure FileFault where
  kind : FileFault.Kind
  reason : String
deriving DecidableEq, Repr

namespace FileFault

/-- There is nothing at the path. -/
def noSuchFile : FileFault := ⟨.missing, "No such file or directory (os error 2)"⟩

/-- A directory is used as a file. -/
def isDirectory : FileFault := ⟨.other, "Is a directory (os error 21)"⟩

/-- A file is used as a directory. -/
def notDirectory : FileFault := ⟨.other, "Not a directory (os error 20)"⟩

/-- A name, or the whole path, is longer than the system takes. -/
def nameTooLong : FileFault := ⟨.other, "File name too long (os error 36)"⟩

/-- No path has the character that ends the system's strings. -/
def nulInName : FileFault := ⟨.other, "file name contained an unexpected NUL byte"⟩

/-- The bytes of a file are no text. -/
def notText : FileFault := ⟨.other, "stream did not contain valid UTF-8"⟩

end FileFault

/-- Reading and writing whole text files by path. -/
structure FileAccess (m : Type → Type) where
  read : String → m (Except FileFault String)
  write : String → String → m (Except FileFault Unit)

/-- The text that bytes encode in UTF-8. -/
def decodeText (bytes : ByteArray) : Except FileFault String :=
  match String.fromUTF8? bytes with
  | some text => .ok text
  | none => .error .notText

/-- A place, as the names on the way to it from the directory in which the programs run. -/
abbrev Location := List String

/-- What stands at a place. -/
inductive Entry where
  | directory
  | file (bytes : ByteArray)

/-- A file system: places and what stands there. -/
structure FileTree where
  entries : List (Location × Entry) := []

namespace FileTree

/-- The place from which absolute paths go. -/
def top : Location := ["/"]

/-- Whether a place is the directory in which the programs run, or lies above it. -/
def isAbove (place : Location) : Bool := place == top || place.all (· == "..")

/-- What stands at a place. What is not below the directory of a run is known to be a directory
if it lies above it, and taken to be nothing otherwise. -/
def entry? (tree : FileTree) (place : Location) : Option Entry :=
  if isAbove place then some .directory
  else (tree.entries.find? fun e => e.1 == place).map (·.2)

/-- The names of a path, between its slashes. -/
def namesOf (path : String) : List String :=
  (path.toList.splitOn '/').map String.ofList

/-- The place where a path begins. -/
def origin (path : String) : Location :=
  if path.toList.head? = some '/' then top else []

/-- The place that contains a place. -/
def parent (place : Location) : Location :=
  if place = top then top
  else if isAbove place then place ++ [".."]
  else place.dropLast

/-- The most bytes that a name has. -/
def maxName : Nat := 255

/-- The most bytes that a path has. -/
def maxPath : Nat := 4095

/-- Whether the system takes a path at all. -/
def checkPath (path : String) : Except FileFault Unit :=
  if path.toList.contains '\x00' then .error .nulInName
  else if path = "" then .error .noSuchFile
  else if maxPath < path.utf8ByteSize then .error .nameTooLong
  else .ok ()

/-- Follows names from a place. Each step leaves a directory; an empty name or a dot stays there,
and two dots go back. -/
def follow (tree : FileTree) (place : Location) : List String → Except FileFault Location
  | [] => .ok place
  | name :: names =>
    match tree.entry? place with
    | none => .error .noSuchFile
    | some (.file _) => .error .notDirectory
    | some .directory =>
      if name = "" ∨ name = "." then follow tree place names
      else if name = ".." then follow tree (parent place) names
      else if maxName < name.utf8ByteSize then .error .nameTooLong
      else follow tree (place ++ [name]) names

/-- Reads the file at a path. -/
def read (tree : FileTree) (path : String) : Except FileFault String := do
  checkPath path
  match tree.entry? (← tree.follow (origin path) (namesOf path)) with
  | none => throw .noSuchFile
  | some .directory => throw .isDirectory
  | some (.file bytes) => decodeText bytes

/-- The tree with this text in a file at a place. -/
def put (tree : FileTree) (place : Location) (text : String) : FileTree where
  entries := (place, .file text.toUTF8) :: tree.entries.filter fun e => e.1 != place

/-- The place where a path names a file to write. The directory must be there; a path that ends
like a directory names no file. -/
def target (tree : FileTree) (path : String) : Except FileFault Location := do
  checkPath path
  let names := (namesOf path).filter (· ≠ "")
  match names.getLast? with
  | none => throw .isDirectory
  | some name =>
    let directory ← tree.follow (origin path) (names.dropLast ++ ["."])
    if name = "." ∨ name = ".." ∨ path.toList.getLast? = some '/' then throw .isDirectory
    if maxName < name.utf8ByteSize then throw .nameTooLong
    match tree.entry? (directory ++ [name]) with
    | some .directory => throw .isDirectory
    | _ => return directory ++ [name]

/-- Writes a text file. A write that fails changes nothing. -/
def write (tree : FileTree) (path text : String) : Except FileFault FileTree := do
  return tree.put (← tree.target path) text

/-- Reading and writing a tree. -/
def access : FileAccess (StateM FileTree) where
  read path := fun tree => (tree.read path, tree)
  write path text := fun tree =>
    match tree.write path text with
    | .ok changed => (.ok (), changed)
    | .error fault => (.error fault, tree)

end FileTree

end HttpSuite
