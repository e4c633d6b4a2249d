import SchemaDocs.Failure
import SchemaDocs.FileSystem.Operations
/-!
# Runs

A run works on a tree of files and keeps a log.  It ends with a result or with a failure, and in
both cases with the files and the log as they are by then.
-/

namespace SchemaDocs

inductive Level where
  | debug
  | info
  | error
  deriving DecidableEq

structure LogLine where
  level : Level
  text : Text
  deriving DecidableEq

structure World where
  files : FileSystem
  log : List LogLine := []

/-- A computation on files and a log that may fail. -/
abbrev Run (α : Type) := EStateM Failure World α

namespace Run

def log (level : Level) (text : Text) : Run Unit :=
  modify fun w => { w with log := w.log ++ [⟨level, text⟩] }

/-- A result or a failure that has been found out already. -/
def ofExcept {ε α : Type} (failure : ε → Failure) : Except ε α → Run α
  | .ok x => pure x
  | .error error => throw (failure error)

def ask {α : Type} (question : FileSystem → Except FileError α) : Run α := fun w =>
  match question w.files with
  | .ok x => .ok x w
  | .error error => .error (.file error) w

def change (step : FileSystem → FileSystem × Except FileError Unit) : Run Unit := fun w =>
  match step w.files with
  | (files, .ok ()) => .ok () { w with files }
  | (files, .error error) => .error (.file error) { w with files }

def makeDirectories (p : Path) (mayExist : Bool) : Run Unit :=
  change fun fs => fs.makeDirectories p mayExist

/-- Writes a file.  It is made empty before its text is encoded, so a text that has no bytes leaves
an empty file. -/
def writeFile (p : Path) (t : Text) : Run Unit := fun w =>
  match w.files.openForWriting p with
  | .error error => .error (.file error) w
  | .ok (opened, place) =>
    match Utf8.encode t with
    | .error fault => .error (.unencodable fault) { w with files := opened }
    | .ok bytes => .ok () { w with files := opened.set place (.file bytes) }

def readFile (p : Path) : Run Text := do
  let bytes ← ask fun fs => fs.read p
  ofExcept .undecodable (Utf8.decode bytes)

end Run

end SchemaDocs
