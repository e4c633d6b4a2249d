import SchemaDocs.Document.Sections
/-!
# The embedded document

The record of a document that a page carries for its export script: the title and, for every model,
its name and the records of its fields together with what is shown of them.  A default that JSON
cannot express is replaced by its literal.
-/

namespace SchemaDocs

/-- A value that has a JSON document: the value itself if it has one, and else its literal.  What
JSON has no form for can be replaced so; a number that is too long cannot. -/
def Value.embeddable (v : Value) : Except Unwritable Value :=
  match v.toJson? with
  | .ok _ => .ok v
  | .error .longInteger => .error .longInteger
  | .error _ => v.literal.map .text

def Attribute.toValue (a : Attribute) : Value :=
  .map .writable [("text", .text a.text), ("target", a.target.elim .null .text)]

namespace FieldSection

/-- The entries on what is shown of a field beside its own record. -/
def shownEntries (s : FieldSection) : List (Text × Value) := [
  ("description", .text s.description),
  ("attributes", .list .writable (s.attributes.map Attribute.toValue))]

/-- The record of a field and of what is shown of it. -/
def exportRecord (s : FieldSection) : Except Unwritable Value :=
  s.field.default.unlock.embeddable.map fun default =>
    .map .writable (s.field.recordEntries default ++ s.shownEntries)

def exportRecords : List FieldSection → Except Unwritable (List Value)
  | [] => .ok []
  | s :: rest => do
    let v ← s.exportRecord
    let vs ← exportRecords rest
    return v :: vs

end FieldSection

namespace ModelSection

def exportRecord (s : ModelSection) : Except Unwritable Value :=
  (FieldSection.exportRecords s.fields).map fun fields =>
    .map .writable [("name", .text s.model.name), ("fields", .list .writable fields)]

def exportRecords : List ModelSection → Except Unwritable (List Value)
  | [] => .ok []
  | s :: rest => do
    let v ← s.exportRecord
    let vs ← exportRecords rest
    return v :: vs

end ModelSection

def exportRecord (title : Text) (sections : List ModelSection) : Except Unwritable Value :=
  (ModelSection.exportRecords sections).map fun models =>
    .map .writable [("title", .text title), ("models", .list .writable models)]

end SchemaDocs
