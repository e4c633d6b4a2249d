import SchemaDocs.Path
import SchemaDocs.Text.Blank
import SchemaDocs.Toml.Basic
/-!
# Settings

What a run can be configured to: where the schema is, where the documents go, how they are called
and their title.  The tables `schema`, `output` and `documentation` of a TOML document give
settings; what they leave out has a default.  Tables are checked before keys, and both in a fixed
order.
-/

namespace SchemaDocs

def defaultTitle : Text := "Prisma Schema Documentation"

structure Settings where
  schema : Path := .ofText "prisma/dmmf.json"
  directory : Path := .ofText "docs"
  htmlFile : Text := "index.html"
  markdownFile : Text := "prisma_schema_documentation.md"
  title : Text := defaultTitle

inductive SettingsFile where
  /-- The default file, if it is there. -/
  | standard
  | named (path : Path)
  deriving DecidableEq

inductive SettingsError where
  | notATable (table : Text)
  | blank (table key : Text)
  | notAFileName (key : Text)
  deriving DecidableEq

def SettingsError.message : SettingsError → Text
  | .notATable table => "config " ++ table ++ " must be a table"
  | .blank table key => "config " ++ table ++ " " ++ key ++ " must be a non-empty string"
  | .notAFileName key => "config output " ++ key ++ " must be a file name, not a path"

namespace Settings

/-- The file that settings are read from if no other one is named. -/
def defaultFile : Path := .ofText "prisma-docs.toml"

/-- A table of a document; an absent one is empty. -/
def tableOf (table : Text) (document : Toml.Entries) : Except SettingsError Toml.Entries :=
  match valueAt? table document with
  | none => .ok []
  | some (.table entries) => .ok entries
  | some _ => .error (.notATable table)

/-- The text of a key without the blanks around it, or the default if the key is absent. -/
def textOf (entries : Toml.Entries) (table key default : Text) : Except SettingsError Text :=
  match valueAt? key entries with
  | none => .ok default
  | some (.string t) => if t.trim.isEmpty then .error (.blank table key) else .ok t.trim
  | some _ => .error (.blank table key)

/-- The file name of a key: a text that is the last component of the path that it spells. -/
def fileNameOf (entries : Toml.Entries) (key default : Text) : Except SettingsError Text := do
  let name ← textOf entries "output" key default
  if (Path.ofText name).name = name then return name else throw (.notAFileName key)

def ofDocument (document : Toml.Entries) : Except SettingsError Settings := do
  let defaults : Settings := {}
  let schemaTable ← tableOf "schema" document
  let outputTable ← tableOf "output" document
  let documentationTable ← tableOf "documentation" document
  let schema ← textOf schemaTable "schema" "path" defaults.schema.text
  let directory ← textOf outputTable "output" "directory" defaults.directory.text
  let htmlFile ← fileNameOf outputTable "html" defaults.htmlFile
  let markdownFile ← fileNameOf outputTable "markdown" defaults.markdownFile
  let title ← textOf documentationTable "documentation" "title" defaults.title
  return { schema := .ofText schema, directory := .ofText directory, htmlFile, markdownFile, title }

end Settings

end SchemaDocs
