import SchemaDocs.Schema.Model
import SchemaDocs.Value.Literal
/-!
# Sections of a document

What both renderings of a schema show: one section for each model and in it one for each field, with
anchors, a description and the attributes in their fixed order.
-/

namespace SchemaDocs

/-- An attribute of a field as it is shown; the one of a relation links to a model. -/
structure Attribute where
  text : Text
  target : Option Text := none
  deriving DecidableEq

structure FieldSection where
  field : Field
  anchor : Text
  description : Text
  attributes : List Attribute

structure ModelSection where
  model : Model
  anchor : Text
  fields : List FieldSection

inductive RenderFault where
  | modelWithoutName
  | fieldWithoutNameOrType (model : Text)
  | unwritable (cause : Unwritable)
  deriving DecidableEq

def RenderFault.message : RenderFault → Text
  | .modelWithoutName => "model is missing a name"
  | .fieldWithoutNameOrType model => "field of model '" ++ model ++ "' is missing a name or type"
  | .unwritable cause => cause.message

namespace Field

/-- The attribute of a default; a field without a default has none. -/
def defaultAttribute (f : Field) : Except Unwritable (List Attribute) :=
  match f.default with
  | .null => .ok []
  | v => v.literal.map fun l => [{ text := "@default(" ++ l ++ ")" }]

def relationAttribute (f : Field) : List Attribute :=
  match f.relation with
  | none => []
  | some relation => if relation.isEmpty then [] else [{ text := relation, target := some f.type }]

/-- The attributes of a field in the order in which they are shown. -/
def attributes (f : Field) : Except Unwritable (List Attribute) :=
  f.defaultAttribute.map fun default =>
    (if f.isId then [{ text := "@id" }] else []) ++
    (if f.isUnique then [{ text := "@unique" }] else []) ++
    default ++
    (if f.updatedAt then [{ text := "@updatedAt" }] else []) ++
    f.relationAttribute

/-- The sentence on a field of a model. -/
def description (model : Text) (f : Field) : Text :=
  "The " ++ f.name ++ " field of the " ++ model ++ " model."

end Field

namespace FieldSection

/-- The attributes in one line; a dash if there are none. -/
def attributeLine (s : FieldSection) : Text :=
  let line := Text.join ", " (s.attributes.map Attribute.text)
  if line.isEmpty then "-" else line

/-- Whether the field is required, in words. -/
def requiredText (s : FieldSection) : Text :=
  if s.field.isRequired then "Yes" else "No"

def ofField (model : Text) (f : Field) : Except RenderFault FieldSection :=
  if f.name.isEmpty || f.type.isEmpty then .error (.fieldWithoutNameOrType model)
  else
    match f.attributes with
    | .error cause => .error (.unwritable cause)
    | .ok attributes =>
      .ok {
        field := f
        anchor := model ++ "-" ++ f.name
        description := f.description model
        attributes }

def listOfFields (model : Text) : List Field → Except RenderFault (List FieldSection)
  | [] => .ok []
  | f :: rest => do
    let s ← ofField model f
    let sections ← listOfFields model rest
    return s :: sections

end FieldSection

namespace ModelSection

def ofModel (m : Model) : Except RenderFault ModelSection :=
  if m.name.isEmpty then .error .modelWithoutName
  else
    (FieldSection.listOfFields m.name m.fields).map fun fields =>
      { model := m, anchor := m.name, fields }

def listOfModels : List Model → Except RenderFault (List ModelSection)
  | [] => .ok []
  | m :: rest => do
    let s ← ofModel m
    let sections ← listOfModels rest
    return s :: sections

end ModelSection

end SchemaDocs
