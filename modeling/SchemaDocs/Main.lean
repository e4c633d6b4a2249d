import SchemaDocs.CommandLine.Execution
/-!
# The program

The part of the disk that a run can look at is read into a tree of files, the command line is
executed on it, and what it changed is written back.
-/

namespace SchemaDocs.Program

/-- A tree with what is on disk along a path, as far as the path leads. -/
def observe (files : FileSystem) (p : Path) : IO FileSystem := do
  let base ← IO.currentDir
  let mut files := files
  for length in List.range p.components.length do
    let reached : Path := { p with components := p.components.take (length + 1) }
    match files.resolve reached with
    | .ok (place, none) =>
      let onDisk := base / Text.toString reached.text
      if ← onDisk.isDir then files := files.set place .directory
      else if ← onDisk.pathExists then
        files := files.set place (.file (← IO.FS.readBinFile onDisk).toList)
    | _ => pure ()
  return files

/-- The tree that holds the current directory only. -/
def currentTree : IO FileSystem := do
  let names := (← IO.currentDir).components.filter fun name => !name.isEmpty
  let place := names.map Text.ofString
  return { (({} : FileSystem).install place .directory) with current := place }

/-- The part of the disk that an invocation can look at. -/
def relevantTree (i : CommandLine.Invocation) : IO FileSystem := do
  let files ← observe (← currentTree) i.settingsPath
  match (Settings.load i.options.config).run { files } with
  | .error _ _ => return files
  | .ok settings _ => (i.paths settings).foldlM observe files

/-- Writes what one tree has and another one has not to disk. -/
def writeChanges (before after : FileSystem) : IO Unit := do
  for (place, node) in FileSystem.changes before after do
    let onDisk := Text.toString ("/" ++ Text.join "/" place)
    match node with
    | .directory => IO.FS.createDir onDisk
    | .file content => IO.FS.writeBinFile onDisk ⟨content.toArray⟩

def run (arguments : List Text) : IO (Except Failure CommandLine.Report) := do
  match CommandLine.parse arguments with
  | .ok (.generate invocation) =>
    let before ← relevantTree invocation
    let (outcome, after) := invocation.execute before
    writeChanges before after
    return outcome
  | _ => return (CommandLine.execute arguments {}).1

end SchemaDocs.Program

def main (arguments : List String) : IO UInt32 := do
  let outcome ← SchemaDocs.Program.run (arguments.map SchemaDocs.Text.ofString)
  match outcome with
  | .ok report =>
    IO.print (SchemaDocs.Text.toString report.output)
    IO.eprint (SchemaDocs.Text.toString report.errors)
  | .error failure => IO.eprintln (SchemaDocs.Text.toString failure.message)
  return (SchemaDocs.CommandLine.exitStatus outcome).toUInt32
