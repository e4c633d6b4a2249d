import SchemaDocs.Document.Sections
/-!
# The Markdown document

A heading for the document, for each model and for each field.  Under the heading of a field stand
its description and a table with its type, whether it is required, and its attributes.  Blocks are
separated by an empty line.
-/

namespace SchemaDocs.Markdown

/-- A text inside a table cell: a pipe would end the cell. -/
def cell (t : Text) : Text :=
  t.replace '|' "\\|"

def row (label value : Text) : Text :=
  "| **" ++ label ++ "**| " ++ value ++ " |"

def fieldTable (s : FieldSection) : Text :=
  Text.join "\n" [
    "| Property | Value |",
    "|----------|-------|",
    row "Type" (cell s.field.type),
    row "Required" s.requiredText,
    row "Attributes" (cell s.attributeLine)]

def fieldEntry (s : FieldSection) : List Text :=
  ["### " ++ s.field.name, "**Description**: " ++ s.description, fieldTable s]

def modelEntry (s : ModelSection) : List Text :=
  ("## " ++ s.model.name) :: s.fields.flatMap fieldEntry

def document (title : Text) (sections : List ModelSection) : Text :=
  Text.join "\n\n" (("# " ++ title) :: sections.flatMap modelEntry) ++ "\n"

def render (title : Text) (models : List Model) : Except RenderFault Text :=
  (ModelSection.listOfModels models).map (document title)

end SchemaDocs.Markdown
