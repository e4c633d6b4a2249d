import SchemaDocs.Value.Equality
/-!
# Models

The canonical records of a schema: models with their fields in declaration order.  They are read
from raw values by the rule that the first offence in document order is reported.
-/

namespace SchemaDocs

structure Field where
  name : Text
  type : Text
  isRequired : Bool := false
  isUnique : Bool := false
  isId : Bool := false
  /-- The default; `null` if there is none. -/
  default : Value := .null
  updatedAt : Bool := false
  /-- The text of the relation attribute. -/
  relation : Option Text := none

structure Model where
  name : Text
  fields : List Field := []

/-- What keeps a raw value from being a list of models.  Positions count from zero. -/
inductive ShapeError where
  | notAList
  | modelNotAnObject (index : Nat)
  | modelWithoutName (index : Nat)
  | modelWithoutFields (model : Text)
  | fieldNotAnObject (index : Nat) (model : Text)
  | fieldWithoutNameOrType (index : Nat) (model : Text)
  | fieldWithEmptyNameOrType (index : Nat) (model : Text)
  deriving DecidableEq

/-- How messages name a field. -/
def fieldTitle (index : Nat) (model : Text) : Text :=
  "field #" ++ Text.ofNat index ++ " of model '" ++ model ++ "'"

def ShapeError.message : ShapeError → Text
  | .notAList => "schema models must be a list of model records"
  | .modelNotAnObject index => "model #" ++ Text.ofNat index ++ " must be an object"
  | .modelWithoutName index => "model #" ++ Text.ofNat index ++ " must define a string 'name'"
  | .modelWithoutFields model => "model '" ++ model ++ "' must define a 'fields' array"
  | .fieldNotAnObject index model => fieldTitle index model ++ " must be an object"
  | .fieldWithoutNameOrType index model =>
    fieldTitle index model ++ " must define string 'name' and 'type'"
  | .fieldWithEmptyNameOrType index model =>
    fieldTitle index model ++ " has an empty 'name' or 'type'"

namespace Field

/-- The default of a field from its raw value.  A function descriptor, which is a map with a name,
stands for its name; any other value is kept with read-only containers. -/
def defaultOfRaw (raw : Value) : Value :=
  if raw.isPresent then
    match raw with
    | .map _ entries =>
      let name := Value.getD "name" entries
      if name.isPresent then name else raw.lock
    | _ => raw.lock
  else .null

def relationText (type : Text) : Text :=
  "@relation(" ++ type ++ ")"

/-- The field of a raw value, at a position in a model. -/
def ofValue (model : Text) (index : Nat) : Value → Except ShapeError Field
  | .map _ entries =>
    match Value.getD "name" entries, Value.getD "type" entries with
    | .text name, .text type =>
      if name.isEmpty || type.isEmpty then .error (.fieldWithEmptyNameOrType index model)
      else
        let isSet := fun (key : Text) => (Value.getD key entries).isPresent
        let default := defaultOfRaw (Value.getD "default" entries)
        .ok {
          name, type, default
          isRequired := isSet "isRequired"
          isUnique := isSet "isUnique"
          isId := isSet "isId"
          updatedAt := isSet "hasDefaultValue" && default.equals (.text "updatedAt")
          relation := if isSet "relationName" then some (relationText type) else none }
    | _, _ => .error (.fieldWithoutNameOrType index model)
  | _ => .error (.fieldNotAnObject index model)

/-- The fields of raw values, of which the first one has a given position. -/
def listOfValues (model : Text) : Nat → List Value → Except ShapeError (List Field)
  | _, [] => .ok []
  | index, raw :: rest => do
    let field ← ofValue model index raw
    let fields ← listOfValues model (index + 1) rest
    return field :: fields

/-- The entries of the record of a field, with a given value as the default. -/
def recordEntries (f : Field) (default : Value) : List (Text × Value) := [
  ("name", .text f.name), ("type", .text f.type), ("isRequired", .bool f.isRequired),
  ("isUnique", .bool f.isUnique), ("isId", .bool f.isId), ("default", default),
  ("updatedAt", .bool f.updatedAt), ("relation", f.relation.elim .null .text)]

def toValue (f : Field) : Value :=
  .map .writable (f.recordEntries f.default.unlock)

/-- Equality of fields, with defaults compared as values. -/
def equals (f g : Field) : Bool :=
  f.name == g.name && f.type == g.type && f.isRequired == g.isRequired &&
    f.isUnique == g.isUnique && f.isId == g.isId && f.default.equals g.default &&
    f.updatedAt == g.updatedAt && f.relation == g.relation

end Field

namespace Model

/-- The model of a raw value, at a position in a schema. -/
def ofValue (index : Nat) : Value → Except ShapeError Model
  | .map _ entries =>
    match Value.getD "name" entries with
    | .text name =>
      if name.isEmpty then .error (.modelWithoutName index)
      else
        match Value.getD "fields" entries with
        | .list _ raws => (Field.listOfValues name 0 raws).map fun fields => { name, fields }
        | _ => .error (.modelWithoutFields name)
    | _ => .error (.modelWithoutName index)
  | _ => .error (.modelNotAnObject index)

/-- The models of raw values, of which the first one has a given position. -/
def listOfValues : Nat → List Value → Except ShapeError (List Model)
  | _, [] => .ok []
  | index, raw :: rest => do
    let model ← ofValue index raw
    let models ← listOfValues (index + 1) rest
    return model :: models

def listOfValue : Value → Except ShapeError (List Model)
  | .list _ raws => listOfValues 0 raws
  | _ => .error .notAList

def toValue (m : Model) : Value :=
  .map .writable [("name", .text m.name), ("fields", .list .writable (m.fields.map Field.toValue))]

def fieldsEqual : List Field → List Field → Bool
  | [], [] => true
  | f :: fs, g :: gs => f.equals g && fieldsEqual fs gs
  | _, _ => false

/-- Equality of models, with defaults compared as values. -/
def equals (m n : Model) : Bool :=
  m.name == n.name && fieldsEqual m.fields n.fields

end Model

end SchemaDocs
