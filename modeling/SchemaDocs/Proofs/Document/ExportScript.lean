import SchemaDocs.Markdown
import SchemaDocs.Proofs.Document.ExportRecord
import SchemaDocs.Proofs.Text.Literal
import SchemaDocs.Proofs.Text.Split
/-!
# The export script

The script of a page writes the Markdown document from the embedded record alone.  It reads the
title, the names of the models and, of each field, the name, the description, the type, whether it
is required and the texts of the attributes.

* `markdown_exportRecord`: what the script writes is the Markdown document of the same models.
-/

namespace SchemaDocs.ExportScript

def textAt? (key : Text) (record : Value) : Option Text :=
  match record.get? key with
  | some (.text t) => some t
  | _ => none

def itemsAt? (key : Text) (record : Value) : Option (List Value) :=
  match record.get? key with
  | some (.list _ items) => some items
  | _ => none

def markdownCell (t : Text) : Text :=
  Text.join "\\|" (Text.split '|' t)

/-- The texts of attributes in one line; a dash if that line is empty. -/
def attributeLine (texts : List Text) : Text :=
  match Text.join ", " texts with
  | [] => "-"
  | line => line

def fieldBlocks (field : Value) : Option (List Text) := do
  let attributes ← itemsAt? "attributes" field
  let texts ← attributes.mapM (textAt? "text")
  let name ← textAt? "name" field
  let description ← textAt? "description" field
  let type ← textAt? "type" field
  let required ← field.get? "isRequired"
  return [
    "### " ++ name,
    "**Description**: " ++ description,
    Text.join "\n" [
      "| Property | Value |",
      "|----------|-------|",
      "| **Type**| " ++ markdownCell type ++ " |",
      "| **Required**| " ++ (if required.isPresent then "Yes" else "No" : Text) ++ " |",
      "| **Attributes**| " ++ markdownCell (attributeLine texts) ++ " |"]]

def modelBlocks (model : Value) : Option (List Text) := do
  let name ← textAt? "name" model
  let fields ← itemsAt? "fields" model
  let blocks ← fields.mapM fieldBlocks
  return ("## " ++ name) :: blocks.flatten

/-- The document that the script writes from a record. -/
def markdown (record : Value) : Option Text := do
  let title ← textAt? "title" record
  let models ← itemsAt? "models" record
  let blocks ← models.mapM modelBlocks
  return Text.join "\n\n" (("# " ++ title) :: blocks.flatten) ++ "\n"

/-! ## What the script finds in a record -/

theorem mapM_textAt?_attributes (as : List Attribute) :
    (as.map Attribute.toValue).mapM (textAt? "text") = some (as.map Attribute.text) := by
  rw [List.mapM_map]
  exact List.mapM_pure

theorem markdownCell_eq (t : Text) : markdownCell t = Markdown.cell t :=
  Text.join_split _ _ _

theorem attributeLine_eq (s : FieldSection) :
    attributeLine (s.attributes.map Attribute.text) = s.attributeLine := by
  unfold attributeLine FieldSection.attributeLine
  cases Text.join ", " (s.attributes.map Attribute.text) <;> rfl

theorem fieldBlocks_record (s : FieldSection) (default : Value) :
    fieldBlocks (s.record default) = some (Markdown.fieldEntry s) := by
  have hattributes :
      itemsAt? "attributes" (s.record default) = some (s.attributes.map Attribute.toValue) := by
    simp [itemsAt?, Value.get?, valueAt?, FieldSection.record, Field.recordEntries,
      FieldSection.shownEntries]
  have hname : textAt? "name" (s.record default) = some s.field.name := by
    simp [textAt?, Value.get?, valueAt?, FieldSection.record, Field.recordEntries]
  have hdescription : textAt? "description" (s.record default) = some s.description := by
    simp [textAt?, Value.get?, valueAt?, FieldSection.record, Field.recordEntries,
      FieldSection.shownEntries]
  have htype : textAt? "type" (s.record default) = some s.field.type := by
    simp [textAt?, Value.get?, valueAt?, FieldSection.record, Field.recordEntries]
  have hrequired :
      (s.record default).get? "isRequired" = some (.bool s.field.isRequired) := by
    simp [Value.get?, valueAt?, FieldSection.record, Field.recordEntries]
  unfold fieldBlocks
  rw [hattributes, hname, hdescription, htype, hrequired]
  simp only [Option.bind_eq_bind, Option.bind_some, mapM_textAt?_attributes, attributeLine_eq,
    markdownCell_eq]
  rfl

theorem modelBlocks_record {s : ModelSection} {fields : List Value}
    (hfields : List.Forall₂ (fun t v => t.exportRecord = .ok v) s.fields fields) :
    modelBlocks (s.record fields) = some (Markdown.modelEntry s) := by
  have hname : textAt? "name" (s.record fields) = some s.model.name := rfl
  have hitems : itemsAt? "fields" (s.record fields) = some fields := by
    simp [itemsAt?, Value.get?, valueAt?, ModelSection.record]
  have hblocks : fields.mapM fieldBlocks = some (s.fields.map Markdown.fieldEntry) := by
    apply Results.mapM_eq_some_map hfields
    intro t v hv
    obtain ⟨default, -, rfl⟩ := FieldSection.exportRecord_eq_ok.mp hv
    exact fieldBlocks_record t default
  unfold modelBlocks
  rw [hname, hitems]
  simp only [Option.bind_eq_bind, Option.bind_some, hblocks]
  rw [Markdown.modelEntry, List.flatMap_def]
  rfl

theorem markdown_documentRecord {title : Text} {sections : List ModelSection}
    {models : List Value}
    (hmodels : List.Forall₂ (fun s v => s.exportRecord = .ok v) sections models) :
    markdown (documentRecord title models) = some (Markdown.document title sections) := by
  have htitle : textAt? "title" (documentRecord title models) = some title := rfl
  have hitems : itemsAt? "models" (documentRecord title models) = some models := by
    simp [itemsAt?, Value.get?, valueAt?, documentRecord]
  have hblocks : models.mapM modelBlocks = some (sections.map Markdown.modelEntry) := by
    apply Results.mapM_eq_some_map hmodels
    intro s v hv
    obtain ⟨fields, hfields, rfl⟩ := ModelSection.exportRecord_eq_ok.mp hv
    exact modelBlocks_record hfields
  unfold markdown
  rw [htitle, hitems]
  simp only [Option.bind_eq_bind, Option.bind_some, hblocks]
  rw [Markdown.document, List.flatMap_def]
  rfl

/-- The script and the renderer write the same document: models that can be shown have an embedded
record, and from the record alone the script writes the Markdown document of the sections that show
them. -/
theorem markdown_exportRecord (title : Text) {models : List Model} {sections : List ModelSection}
    (h : ModelSection.listOfModels models = .ok sections) :
    List.Forall₂ ModelSection.Shows models sections ∧
      ∃ record document, exportRecord title sections = .ok record ∧
        Markdown.render title models = .ok document ∧ markdown record = some document := by
  obtain ⟨record, hrecord⟩ := exists_exportRecord title h
  obtain ⟨records, hrecords, rfl⟩ := exportRecord_eq_ok.mp hrecord
  refine ⟨ModelSection.listOfModels_eq_ok.mp h, _, Markdown.document title sections, hrecord, ?_,
    markdown_documentRecord hrecords⟩
  rw [Markdown.render, h]
  rfl

/-- A default that JSON cannot express, with a pipe in its literal. -/
def separatorModel : Model where
  name := "Text"
  fields := [{
    name := "separator", type := "A|B"
    default := .list .writable [.foreign "a|b", .map .readOnly [("k", .bool true)]]
    relation := some "@relation(A|B)" }]

theorem markdown_exportRecord_foreign :
    ∃ sections, ModelSection.listOfModels [separatorModel] = .ok sections ∧
      List.Forall₂ ModelSection.Shows [separatorModel] sections ∧
      ∃ record document, exportRecord "Escapes <&>" sections = .ok record ∧
        Markdown.render "Escapes <&>" [separatorModel] = .ok document ∧
        markdown record = some document :=
  ⟨_, rfl, markdown_exportRecord _ rfl⟩

end SchemaDocs.ExportScript
