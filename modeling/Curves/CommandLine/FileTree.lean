import Curves.CommandLine.Storage

/-!
# Trees of files

A storage in memory: files in directories, one of which is the directory that paths start from. A
path is a list of names between slashes. All names but the last one have to lead through
directories; `.` stays in a directory and `..` leaves it, except at the top.

Names and paths have a greatest length in bytes. Reading and writing differ where the last name is
followed by a slash: such a path can name a directory only, and no file is made for it.
-/

namespace Curves.CommandLine

/-- Where a file or a directory is: its name, the name of the directory that holds it, and so on up
to the top. -/
abbrev Place := List String

/-- Files by their places. -/
structure FileTree where
  files : List (Place × List UInt8) := []
  /-- The directory that paths start from. -/
  here : Place := []

/-- What a path leads to. -/
inductive Destination where
  | directory
  /-- A name in a directory, and whether a slash follows it. -/
  | entry (directory : Place) (name : String) (slash : Bool)
  deriving DecidableEq

def maxNameLength : Nat := 255

def maxPathLength : Nat := 4095

namespace FileTree

def get? (tree : FileTree) (place : Place) : Option (List UInt8) := tree.files.lookup place

def set (tree : FileTree) (place : Place) (content : List UInt8) : FileTree :=
  { tree with files := (place, content) :: tree.files.filter fun file => file.1 != place }

/-- What is stored at a place is found there, and all other places are as they were. -/
theorem get?_set (tree : FileTree) (place other : Place) (content : List UInt8) :
    (tree.set place content).get? other =
      if other = place then some content else tree.get? other := by
  unfold get? set
  by_cases h : other = place
  · simp [h]
  · rw [List.lookup_cons, show (other == place) = false by simpa using h, if_neg h]
    induction tree.files with
    | nil => rfl
    | cons file rest ih =>
      by_cases hp : file.1 = place
      · have ho : (other == file.1) = false := by simpa [hp] using h
        rw [List.filter_cons, if_neg (by simpa using hp), List.lookup_cons, ho]
        exact ih
      · rw [List.filter_cons, if_pos (by simpa using hp), List.lookup_cons, List.lookup_cons]
        cases other == file.1
        · exact ih
        · rfl

/-- Whether a place is a directory: paths start there, or below, or a file is below. -/
def isDirectory (tree : FileTree) (place : Place) : Bool :=
  (tree.here :: tree.files.map (·.1.tail)).any (place.isSuffixOf ·)

theorem isDirectory_top (tree : FileTree) : tree.isDirectory [] = true := by
  simp [isDirectory]

/-- Goes from a directory to the one that a name in it stands for. -/
def enter (tree : FileTree) (directory : Place) (name : String) : Except StorageError Place :=
  if name = "." then .ok directory
  else if name = ".." then .ok directory.tail
  else if maxNameLength < name.utf8ByteSize then .error .nameTooLong
  else if tree.isDirectory (name :: directory) then .ok (name :: directory)
  else if (tree.get? (name :: directory)).isSome then .error .notADirectory
  else .error .noFile

def resolve (tree : FileTree) (path : String) : Except StorageError Destination := do
  let names := path.splitOn "/"
  if path.isEmpty then throw .noFile
  if maxPathLength < path.utf8ByteSize then throw .nameTooLong
  let start := if names.head? = some "" then [] else tree.here
  let steps := names.filter (· ≠ "")
  let directory ← steps.dropLast.foldlM tree.enter start
  match steps.getLast? with
  | none | some "." | some ".." => return .directory
  | some name => return .entry directory name (names.getLast? = some "")

def read (tree : FileTree) (path : String) : Except StorageError (List UInt8) := do
  match ← tree.resolve path with
  | .directory => throw .isADirectory
  | .entry directory name slash =>
    if maxNameLength < name.utf8ByteSize then throw .nameTooLong
    if tree.isDirectory (name :: directory) then throw .isADirectory
    match tree.get? (name :: directory) with
    | none => throw .noFile
    | some content => if slash then throw .notADirectory else return content

/-- Writes a file, which is made if there is none. -/
def write (tree : FileTree) (path : String) (content : List UInt8) :
    Except StorageError FileTree := do
  match ← tree.resolve path with
  | .directory => throw .isADirectory
  | .entry directory name slash =>
    if slash then throw .isADirectory
    if maxNameLength < name.utf8ByteSize then throw .nameTooLong
    if tree.isDirectory (name :: directory) then throw .isADirectory
    return tree.set (name :: directory) content

/-- The tree as a storage whose state it is. -/
def storage : Storage (StateM FileTree) where
  read path := fun tree => (tree.read path, tree)
  write path content := fun tree =>
    match tree.write path content with
    | .ok written => (.ok (), written)
    | .error e => (.error e, tree)

end FileTree

end Curves.CommandLine
