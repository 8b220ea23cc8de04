import PathVeil.Failure
import PathVeil.Segment

/-!
# PathVeil.FileTree

Directories and files, and what the program may do with them. A place in the tree
is the list of names that leads to it from the root. File names are resolved step
by step from a working directory: every name but the last has to be that of a
directory, and every step is made from a directory that may be entered.

There are no links in the tree, neither symbolic nor hard ones: two names mean the
same file exactly if they lead to the same place.
-/

namespace PathVeil

/-- What there is at a place. -/
inductive FileNode where
  | file (content : List UInt8)
  | directory
  deriving DecidableEq, Repr

/-- The names that lead to a place from the root. -/
abbrev Place := List String

/-- What can be done with a file or a directory. -/
inductive Right where
  /-- To read what is in it. -/
  | reading
  /-- To write a file anew, or to put a new file into a directory. -/
  | writing
  /-- To make a step from a directory. -/
  | entering
  deriving DecidableEq, Repr

/-- What there is, place by place. The root is always there. -/
structure FileTree where
  entries : List (Place × FileNode) := []
  /-- What the program may not do with what is at a place, or will be. -/
  forbidden : List (Place × Right) := []
  deriving DecidableEq, Repr

namespace FileTree

/-- The longest name a file may have in its directory, in bytes. -/
def maxNameLength : Nat := 255

/-- The longest name by which a file can be asked for, in bytes. -/
def maxPathLength : Nat := 4095

/-- What there is at a place. -/
def get? (tree : FileTree) (place : Place) : Option FileNode :=
  if place.isEmpty then some .directory else (tree.entries.find? (·.1 == place)).map (·.2)

/-- Puts a file or a directory at a place. -/
def put (tree : FileTree) (place : Place) (node : FileNode) : FileTree :=
  { tree with entries := (place, node) :: tree.entries.filter (·.1 != place) }

/-- Takes a right away from the program. -/
def forbid (tree : FileTree) (right : Right) (place : Place) : FileTree :=
  { tree with forbidden := (place, right) :: tree.forbidden }

/-- Whether the program has a right. -/
def permits (tree : FileTree) (right : Right) (place : Place) : Bool :=
  !tree.forbidden.contains (place, right)

/-- Puts a file at a place, with all directories on the way there. -/
def plant (tree : FileTree) (place : Place) (content : List UInt8) : FileTree :=
  let ancestors := (List.range place.length).map place.take
  let tree := ancestors.foldl (fun tree place =>
    if place.isEmpty || (tree.get? place).isSome then tree else tree.put place .directory) tree
  tree.put place (.file content)

@[simp] theorem permits_put (tree : FileTree) (place : Place) (node : FileNode) :
    (tree.put place node).permits = tree.permits := rfl

@[simp] theorem get?_put_self (tree : FileTree) {place : Place} (node : FileNode)
    (h : place ≠ []) : (tree.put place node).get? place = some node := by
  simp [get?, put, h]

theorem get?_put_of_ne (tree : FileTree) {place other : Place} (node : FileNode)
    (h : other ≠ place) : (tree.put place node).get? other = tree.get? other := by
  have hentries : (tree.entries.filter (·.1 != place)).find? (·.1 == other)
      = tree.entries.find? (·.1 == other) := by
    rw [List.find?_filter]
    congr 1
    funext entry
    by_cases ho : entry.1 = other
    · simp [ho, h]
    · simp [ho]
  by_cases hroot : other = []
  · simp [get?, hroot]
  · have hne : (place == other) = false := by simpa using Ne.symm h
    simp [get?, put, hroot, hne, hentries]

/-! ### File names -/

/-- The parts of a file name between its slashes. -/
def parts (name : String) : List String :=
  ((Segment.split name.toList).filter (!·.isEmpty)).map String.ofList

/-- One step from a directory. -/
def step (place : Place) (name : String) : Except FileError Place :=
  if name = "." then .ok place
  else if name = ".." then .ok place.dropLast
  else if maxNameLength < name.utf8ByteSize then .error .nameTooLong
  else .ok (place ++ [name])

/-- One step from a directory, if it may be entered. -/
def enter (tree : FileTree) (place : Place) (name : String) : Except FileError Place :=
  if tree.permits .entering place then step place name else .error .permissionDenied

/-- Follows the parts of a name from a directory. -/
def walk (tree : FileTree) (place : Place) : List String → Except FileError Place
  | [] => .ok place
  | [name] => tree.enter place name
  | name :: names =>
    match tree.enter place name with
    | .error e => .error e
    | .ok next =>
      match tree.get? next with
      | none => .error .notFound
      | some (.file _) => .error .notDirectory
      | some .directory => walk tree next names

/-- The place that a file name means, whether there is anything or not. -/
def resolve (tree : FileTree) (directory : Place) (name : String) : Except FileError Place :=
  if name.isEmpty then .error .notFound
  else if maxPathLength < name.utf8ByteSize then .error .nameTooLong
  else tree.walk (if name.startsWith "/" then [] else directory) (parts name)

/-- Whether a file name can only mean a directory. -/
def meansDirectory (name : String) : Bool := name.endsWith "/"

/-! ### Opening and writing -/

/-- The place of an existing file or directory. -/
def locate (tree : FileTree) (directory : Place) (name : String) : Except FileError Place :=
  match tree.resolve directory name with
  | .error e => .error e
  | .ok place =>
    match tree.get? place with
    | none => .error .notFound
    | some (.file _) => if meansDirectory name then .error .notDirectory else .ok place
    | some .directory => .ok place

/-- The content of the file at a place. -/
def contentAt (tree : FileTree) (place : Place) : Except FileError (List UInt8) :=
  match tree.get? place with
  | none => .error .notFound
  | some .directory => .error .isDirectory
  | some (.file content) => .ok content

/-- The content of a file, whether or not the program may read it. -/
def read (tree : FileTree) (directory : Place) (name : String) : Except FileError (List UInt8) :=
  match tree.locate directory name with
  | .error e => .error e
  | .ok place => tree.contentAt place

/-- Whether a name is that of a file. It need not be one that may be read. -/
def isFile (tree : FileTree) (directory : Place) (name : String) : Bool :=
  (tree.read directory name).isOk

/-- The place of an existing file or directory that is to be read. A directory can
be opened too; only then there is nothing to read in it. -/
def openNode (tree : FileTree) (directory : Place) (name : String) : Except FileError Place :=
  match tree.locate directory name with
  | .error e => .error e
  | .ok place => if tree.permits .reading place then .ok place else .error .permissionDenied

/-- The content of a file that the program opens for it. -/
def load (tree : FileTree) (directory : Place) (name : String) : Except FileError (List UInt8) :=
  match tree.openNode directory name with
  | .error e => .error e
  | .ok place => tree.contentAt place

/-- Where it is decided whether a file may be written: there, or in its directory if
the file is a new one. -/
def gate (tree : FileTree) (place : Place) : Place :=
  if (tree.get? place).isSome then place else place.dropLast

/-- The place of a file that is to be written: a new file, or one whose content is
given up. -/
def writable (tree : FileTree) (directory : Place) (name : String) : Except FileError Place :=
  match tree.resolve directory name with
  | .error e => .error e
  | .ok place =>
    match tree.get? place with
    | some .directory => .error .isDirectory
    | _ =>
      if meansDirectory name then .error .isDirectory
      else if tree.permits .writing (tree.gate place) then .ok place
      else .error .permissionDenied

end FileTree

end PathVeil
