import SchemaDocs.FileSystem.Name
import SchemaDocs.Path
import SchemaDocs.Text.Quoted
/-!
# File systems

A tree of directories and files with a current directory.  A place in the tree is the list of names
that lead to it from the top, each as the disk lists it.  Paths are followed one component at a
time, so that a component that is missing or no directory is noticed even if a double dot comes
after it.
-/

namespace SchemaDocs

/-- A place in the tree: the names that lead to it from the top. -/
abbrev Location := List Text

inductive Node where
  | directory
  | file (content : Bytes)
  deriving DecidableEq

/-- A tree of files, with a current directory from which relative paths start. -/
structure FileSystem where
  current : Location := []
  nodes : List (Location × Node) := []

inductive FileCause where
  | noSuchFile
  | fileExists
  | notADirectory
  | isADirectory
  | nameTooLong
  deriving DecidableEq

inductive FileError where
  | refused (cause : FileCause) (path : Path)
  /-- The path has a surrogate that stands for no byte. -/
  | unencodable (fault : Utf8.EncodeFault)
  /-- The path has U+0000 in it. -/
  | nullInPath
  deriving DecidableEq

/-- The number of a cause and its wording. -/
def FileCause.message : FileCause → Text
  | .noSuchFile => "[Errno 2] No such file or directory"
  | .fileExists => "[Errno 17] File exists"
  | .notADirectory => "[Errno 20] Not a directory"
  | .isADirectory => "[Errno 21] Is a directory"
  | .nameTooLong => "[Errno 36] File name too long"

def FileError.message : FileError → Text
  | .refused cause path => cause.message ++ ": " ++ path.text.quoted
  | .unencodable fault => fault.message
  | .nullInPath => "embedded null byte"

namespace FileSystem

def nodeAt? (place : Location) : List (Location × Node) → Option Node
  | [] => none
  | (l, node) :: rest => if l = place then some node else nodeAt? place rest

/-- The nodes with another one at a place. -/
def setNode (place : Location) (node : Node) : List (Location × Node) → List (Location × Node)
  | [] => [(place, node)]
  | (l, n) :: rest => if l = place then (place, node) :: rest else (l, n) :: setNode place node rest

/-- What is at a place.  The top is a directory. -/
def find? (fs : FileSystem) (place : Location) : Option Node :=
  if place.isEmpty then some .directory else nodeAt? place fs.nodes

def set (fs : FileSystem) (place : Location) (node : Node) : FileSystem :=
  { fs with nodes := setNode place node fs.nodes }

/-- A tree with a node put at a place and with the directories above it, as far as they are
missing. -/
def install (fs : FileSystem) (place : Location) (node : Node) : FileSystem :=
  let above := (List.range place.length).map place.take
  let prepared := above.foldl
    (fun fs l => if (fs.find? l).isSome then fs else fs.set l .directory) fs
  prepared.set place node

/-- The nodes that one tree has and another one has not, or not with this content. -/
def changes (before after : FileSystem) : List (Location × Node) :=
  after.nodes.filter fun (l, node) => before.find? l != some node

def maxNameSize : Nat := 255

def maxPathSize : Nat := 4095

/-- The place of a name in a directory, and what is there. -/
def child (fs : FileSystem) (here : Location) (name : Text) :
    Except FileCause (Location × Option Node) :=
  if name = Path.up then .ok (here.dropLast, some .directory)
  else if maxNameSize < (Name.encode name).length then .error .nameTooLong
  else
    let there := here ++ [Name.listed name]
    .ok (there, fs.find? there)

/-- The directory that names lead to from another one. -/
def walk (fs : FileSystem) (here : Location) : List Text → Except FileCause Location
  | [] => .ok here
  | name :: rest => do
    match ← fs.child here name with
    | (there, some .directory) => walk fs there rest
    | (_, some (.file _)) => .error .notADirectory
    | (_, none) => .error .noSuchFile

def start (fs : FileSystem) (p : Path) : Location :=
  if p.root.isEmpty then fs.current else []

/-- The place that a path names, and what is there.  The directory of the place exists. -/
def locate (fs : FileSystem) (p : Path) : Except FileCause (Location × Option Node) :=
  if maxPathSize < (Name.encode p.text).length then .error .nameTooLong
  else
    match p.components.getLast? with
    | none => .ok (fs.start p, some .directory)
    | some name => do
      let here ← fs.walk (fs.start p) p.components.dropLast
      fs.child here name

/-- The place that a path names, if the text of the path spells bytes without a null byte. -/
def resolve (fs : FileSystem) (p : Path) : Except FileError (Location × Option Node) :=
  match Name.fault? p.text with
  | some fault => .error (.unencodable fault)
  | none =>
    if p.hasNull then .error .nullInPath
    else (fs.locate p).mapError fun cause => .refused cause p

end FileSystem

end SchemaDocs
