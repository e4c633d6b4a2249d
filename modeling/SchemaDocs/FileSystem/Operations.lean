import SchemaDocs.FileSystem.Basic
/-!
# Operations on files and directories

Asking what a path names, reading a file, and making directories and files.  An operation that
changes a tree returns the tree with its outcome, since it may fail after it has changed something.
-/

namespace SchemaDocs.FileSystem

/-- Whether a question about a path has the answer yes.  What is missing answers no, and so does a
path that spells no name; only a name that is too long leaves the question open. -/
def ask (fs : FileSystem) (p : Path) (question : Option Node → Bool) : Except FileError Bool :=
  match fs.resolve p with
  | .ok (_, found) => .ok (question found)
  | .error (.refused .nameTooLong q) => .error (.refused .nameTooLong q)
  | .error _ => .ok false

def isFile (fs : FileSystem) (p : Path) : Except FileError Bool :=
  fs.ask p fun
    | some (.file _) => true
    | _ => false

def isDirectory (fs : FileSystem) (p : Path) : Except FileError Bool :=
  fs.ask p fun
    | some .directory => true
    | _ => false

def contains (fs : FileSystem) (p : Path) : Except FileError Bool :=
  fs.ask p Option.isSome

def read (fs : FileSystem) (p : Path) : Except FileError Bytes :=
  match fs.resolve p with
  | .ok (_, some (.file content)) => .ok content
  | .ok (_, some .directory) => .error (.refused .isADirectory p)
  | .ok (_, none) => .error (.refused .noSuchFile p)
  | .error error => .error error

def createDirectory (fs : FileSystem) (p : Path) : Except FileError FileSystem :=
  match fs.resolve p with
  | .ok (place, none) => .ok (fs.set place .directory)
  | .ok (_, some _) => .error (.refused .fileExists p)
  | .error error => .error error

/-- The outcome of making a directory that could not be made: if directories may exist already and
this one does, nothing is wrong. -/
def settle (fs : FileSystem) (p : Path) (mayExist : Bool) (error : FileError) :
    FileSystem × Except FileError Unit :=
  match error with
  | .refused _ _ =>
    if mayExist then
      match fs.isDirectory p with
      | .ok true => (fs, .ok ())
      | .ok false => (fs, .error error)
      | .error raised => (fs, .error raised)
    else (fs, .error error)
  | _ => (fs, .error error)

/-- Makes a directory whose parent exists. -/
def makeDirectory (fs : FileSystem) (p : Path) (mayExist : Bool) :
    FileSystem × Except FileError Unit :=
  match fs.createDirectory p with
  | .ok made => (made, .ok ())
  | .error (.refused .noSuchFile q) => (fs, .error (.refused .noSuchFile q))
  | .error error => fs.settle p mayExist error

/-- Makes a directory, and before it the directories above it if they are missing.  The components
of the path are given from the last one on. -/
def makeDirectoriesUp (root : Text) (mayExist : Bool) :
    List Text → FileSystem → FileSystem × Except FileError Unit
  | [], fs => fs.makeDirectory ⟨root, []⟩ mayExist
  | name :: above, fs =>
    let p : Path := ⟨root, (name :: above).reverse⟩
    match fs.createDirectory p with
    | .ok made => (made, .ok ())
    | .error (.refused .noSuchFile _) =>
      match makeDirectoriesUp root true above fs with
      | (made, .ok ()) => made.makeDirectory p mayExist
      | failed => failed
    | .error error => fs.settle p mayExist error

/-- Makes a directory and those above it that are missing. -/
def makeDirectories (fs : FileSystem) (p : Path) (mayExist : Bool) :
    FileSystem × Except FileError Unit :=
  makeDirectoriesUp p.root mayExist p.components.reverse fs

/-- Makes a file empty, or makes an empty file; its place is returned. -/
def openForWriting (fs : FileSystem) (p : Path) : Except FileError (FileSystem × Location) :=
  match fs.resolve p with
  | .ok (_, some .directory) => .error (.refused .isADirectory p)
  | .ok (place, _) => .ok (fs.set place (.file []), place)
  | .error error => .error error

end SchemaDocs.FileSystem
