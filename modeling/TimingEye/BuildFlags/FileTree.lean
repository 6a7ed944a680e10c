/-!
# A file tree

The files a build step can see, from the root on, and the directory it works in.  A path is followed
name by name, as the operating system does it: from the root if it begins with a separator, and from
the working directory if not.  Each way in which this can fail is a `FileError`.
-/

namespace TimingEye
namespace BuildFlags

abbrev Octets := List UInt8

namespace Octets

def ofString (text : String) : Octets :=
  text.toByteArray.data.toList

/-- The text that some octets encode, if they encode any. -/
def text? (octets : Octets) : Option String :=
  String.fromUTF8? ⟨octets.toArray⟩

/-- The parts of a sequence between separators; there is one part more than separators. -/
def splitOn (separator : UInt8) : Octets → List Octets
  | [] => [[]]
  | octet :: rest =>
    if octet = separator then [] :: splitOn separator rest
    else
      match splitOn separator rest with
      | [] => [[octet]]
      | part :: parts => (octet :: part) :: parts

end Octets

/-! ## Failures -/

inductive FileError where
  | notFound
  | notADirectory
  | isADirectory
  | nameTooLong
  deriving DecidableEq, Repr

namespace FileError

def code : FileError → Nat
  | notFound => 2
  | notADirectory => 20
  | isADirectory => 21
  | nameTooLong => 36

def kind : FileError → String
  | notFound => "NotFound"
  | notADirectory => "NotADirectory"
  | isADirectory => "IsADirectory"
  | nameTooLong => "InvalidFilename"

def text : FileError → String
  | notFound => "No such file or directory"
  | notADirectory => "Not a directory"
  | isADirectory => "Is a directory"
  | nameTooLong => "File name too long"

end FileError

/-! ## Places -/

/-- Where an entry is: the names that lead there from the root, innermost first. -/
structure Place where
  names : List Octets
  deriving DecidableEq, Repr

namespace Place

def root : Place where
  names := []

/-- The directory that a place is in.  The root is in itself. -/
def parent (place : Place) : Place where
  names := place.names.tail

def child (place : Place) (name : Octets) : Place where
  names := name :: place.names

end Place

inductive Entry where
  | file (content : Octets)
  | directory
  deriving DecidableEq, Repr

/-- A file tree: what was put where, the latest first, and where relative paths begin. -/
structure FileTree where
  workingDirectory : Place
  entries : List (Place × Entry)

namespace FileTree

def entry? (tree : FileTree) (place : Place) : Option Entry :=
  (tree.entries.find? (·.1 == place)).map (·.2)

def put (tree : FileTree) (place : Place) (entry : Entry) : FileTree :=
  { tree with entries := (place, entry) :: tree.entries }

/-! ## Paths -/

/-- The octet between the names of a path. -/
def separator : UInt8 := 47

def selfName : Octets := [46]

def parentName : Octets := [46, 46]

def nameLimit : Nat := 255

/-- The length from which on a path is too long. -/
def pathLimit : Nat := 4096

def names (path : Octets) : List Octets :=
  (Octets.splitOn separator path).filter (· ≠ [])

def startOf (tree : FileTree) (path : Octets) : Place :=
  if path.head? = some separator then .root else tree.workingDirectory

/-- What a path has led to so far. -/
inductive Node where
  | directory (place : Place)
  | file (content : Octets)
  deriving DecidableEq, Repr

def follow (tree : FileTree) : Node → Octets → Except FileError Node
  | .file _, _ => .error .notADirectory
  | .directory place, name =>
    if name = selfName then .ok (.directory place)
    else if name = parentName then .ok (.directory place.parent)
    else if nameLimit < name.length then .error .nameTooLong
    else
      -- A name that leads nowhere ends the path, even if a parent name follows it.
      match tree.entry? (place.child name) with
      | some (.file content) => .ok (.file content)
      | some .directory => .ok (.directory (place.child name))
      | none => .error .notFound

def resolve (tree : FileTree) (path : Octets) : Except FileError Node :=
  if pathLimit ≤ path.length then .error .nameTooLong
  else (names path).foldlM tree.follow (.directory (tree.startOf path))

def read (tree : FileTree) (path : Octets) : Except FileError Octets :=
  match tree.resolve path with
  | .ok (.file content) => .ok content
  | .ok (.directory _) => .error .isADirectory
  | .error cause => .error cause

/-! ## Building a tree -/

/-- Goes down to a directory of a given name, which is made if there is none. -/
def enter (tree : FileTree) (place : Place) (name : Octets) : FileTree × Place :=
  if name = selfName then (tree, place)
  else if name = parentName then (tree, place.parent)
  else
    let inner := place.child name
    match tree.entry? inner with
    | some _ => (tree, inner)
    | none => (tree.put inner .directory, inner)

def makeDirectories (tree : FileTree) (place : Place) : List Octets → FileTree × Place
  | [] => (tree, place)
  | name :: rest =>
    let (grown, inner) := tree.enter place name
    grown.makeDirectories inner rest

/-- Adds a file, or a directory if there is no content, and the directories that lead to it. -/
def add (tree : FileTree) (path : Octets) (content : Option Octets) : FileTree :=
  match content with
  | none => (tree.makeDirectories (tree.startOf path) (names path)).1
  | some octets =>
    let (grown, place) := tree.makeDirectories (tree.startOf path) (names path).dropLast
    match (names path).getLast? with
    | some name => grown.put (place.child name) (.file octets)
    | none => grown

/-- A tree with nothing in it. -/
def bare : FileTree where
  workingDirectory := .root
  entries := [(.root, .directory)]

/-- A tree with nothing in it but the way to its working directory, `/scratch/a/b/c`. -/
def empty : FileTree :=
  let (tree, place) :=
    bare.makeDirectories .root (["scratch", "a", "b", "c"].map Octets.ofString)
  { tree with workingDirectory := place }

end FileTree

end BuildFlags
end TimingEye
