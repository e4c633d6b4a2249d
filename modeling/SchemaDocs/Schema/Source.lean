import SchemaDocs.Run
/-!
# Schema files

A schema file is a JSON document: a list of models, an object with such a list under `models`, or an
object with such an object under `datamodel`.  Nothing is known of the models yet.
-/

namespace SchemaDocs.Schema

/-- The document of the models inside a schema document.  An object under `datamodel` takes the
place of the whole. -/
def dataModel (document : Json) : Json :=
  match document with
  | .object members =>
    match valueAt? "datamodel" members with
    | some (.object inner) => .object inner
    | _ => document
  | _ => document

def modelList? (document : Json) : Option (List Json) :=
  match dataModel document with
  | .array items => some items
  | .object members =>
    match valueAt? "models" members with
    | some (.array items) => some items
    | _ => none
  | _ => none

/-- The schema that a text holds, as a list of raw models. -/
def ofText (t : Text) : Except Failure Value :=
  match Json.read t.unifyNewlines with
  | .error (.malformed cause place) => .error (.schemaSyntax cause place)
  | .error (.longInteger digits) => .error (.longInteger digits)
  | .ok document =>
    match modelList? document with
    | some items => .ok (Value.ofJson (.array items))
    | none => .error .schemaWithoutModels

def load (p : Path) : Run Value := do
  Run.log .info ("Looking for schema at: " ++ p.text)
  if ← Run.ask fun fs => fs.isFile p then
    let t ← Run.readFile p
    Run.ofExcept id (ofText t)
  else throw (.schemaNotFound p)

/-- The models of a raw schema; their number goes to the log. -/
def models (raw : Value) : Run (List Model) := do
  let models ← Run.ofExcept .shape (Model.listOfValue raw)
  Run.log .debug ("normalized " ++ Text.ofNat models.length ++ " models")
  return models

end SchemaDocs.Schema
