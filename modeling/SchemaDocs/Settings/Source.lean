import SchemaDocs.Run
import SchemaDocs.Toml.Reader
/-!
# Settings files

Settings are read from a TOML file.  Without a named file the default one is read if it is there,
and otherwise every setting has its default.
-/

namespace SchemaDocs.Settings

def ofText (t : Text) : Except Failure Settings :=
  match Toml.read t with
  | .error .malformed => .error .settingsSyntax
  | .error (.longInteger digits) => .error (.longInteger digits)
  | .ok document =>
    match ofDocument document with
    | .ok settings => .ok settings
    | .error error => .error (.settings error)

def loadFile (p : Path) : Run Settings := do
  let t ← Run.readFile p
  Run.ofExcept id (ofText t)

/-- The settings of a named file, or of the default one if no file is named. -/
def load : SettingsFile → Run Settings
  | .named p => loadFile p
  | .standard => do
    if ← Run.ask fun fs => fs.isFile defaultFile then loadFile defaultFile else return {}

end SchemaDocs.Settings
