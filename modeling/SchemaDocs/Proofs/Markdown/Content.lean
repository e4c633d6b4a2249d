import SchemaDocs.Proofs.Markdown.Lines
import SchemaDocs.Proofs.Text.Occurrence
/-!
# Reading the Markdown document

The document is read back line by line.  A heading tells by its number signs whether a model or a
field begins, and the lines of a field stand in fixed places after its heading, so nothing in a text
can be taken for a heading.  In a cell a pipe follows the backslash that was put before it, and no
other pipe occurs.

* `read_render`: what is read from a document is the title and all that it shows of the models.
-/

namespace SchemaDocs.Markdown

open Text (OneLine dropStart?)

/-! ## What is read -/

structure ShownField where
  name : Text
  description : Text
  type : Text
  isRequired : Bool
  attributes : Text
  deriving DecidableEq

structure ShownModel where
  name : Text
  fields : List ShownField
  deriving DecidableEq

def ShownField.ofSection (s : FieldSection) : ShownField where
  name := s.field.name
  description := s.description
  type := s.field.type
  isRequired := s.field.isRequired
  attributes := s.attributeLine

def ShownModel.ofSection (s : ModelSection) : ShownModel where
  name := s.model.name
  fields := s.fields.map ShownField.ofSection

/-! ## Reading -/

/-- The text of a cell: a backslash before a pipe is left out. -/
def uncell : Text → Text
  | [] => []
  | [c] => [c]
  | c :: d :: rest =>
    if c = '\\' ∧ d = '|' then d :: uncell rest else c :: uncell (d :: rest)

def dropEnd? (ending t : Text) : Option Text :=
  (dropStart? ending.reverse t.reverse).map List.reverse

/-- The text in the second cell of the row with a given label. -/
def readRow (label r : Text) : Option Text := do
  let value ← dropStart? ("| **" ++ label ++ "**| ") r
  let value ← dropEnd? " |" value
  return uncell value

/-- A field of a given name, from the lines below its heading that are not the same for all. -/
def readField (name description typeRow requiredRow attributesRow : Text) : Option ShownField := do
  let description ← dropStart? "**Description**: " description
  let type ← readRow "Type" typeRow
  let required ← readRow "Required" requiredRow
  let attributes ← readRow "Attributes" attributesRow
  return { name, description, type, isRequired := required = "Yes", attributes }

/-- The models from some line on, and before them the fields that belong to an earlier heading. -/
def readBlocks : List Text → Option (List ShownField × List ShownModel)
  | [[]] => some ([], [])
  | [] :: heading :: rest =>
    match dropStart? "### " heading with
    | some name =>
      match rest with
      | [] :: description :: [] :: _ :: _ :: typeRow :: requiredRow :: attributesRow :: rest => do
        let field ← readField name description typeRow requiredRow attributesRow
        let (fields, models) ← readBlocks rest
        return (field :: fields, models)
      | _ => none
    | none => do
      let name ← dropStart? "## " heading
      let (fields, models) ← readBlocks rest
      return ([], { name, fields } :: models)
  | _ => none

def read (document : Text) : Option (Text × List ShownModel) :=
  match Text.split '\n' document with
  | [] => none
  | first :: rest => do
    let title ← dropStart? "# " first
    match ← readBlocks rest with
    | ([], models) => return (title, models)
    | _ => none

/-! ## Rows -/

theorem head?_cell_ne (t : Text) : (cell t).head? ≠ some (CodePoint.ofChar '|') := by
  cases t with
  | nil => simp
  | cons c rest =>
      by_cases hc : c = '|'
      · subst hc
        rw [cell_cons_pipe, List.head?_cons]
        decide
      · rw [cell_cons_of_ne hc, List.head?_cons]
        exact fun h => hc (Option.some.inj h)

theorem uncell_cons {c : CodePoint} {t : Text} (ht : t.head? ≠ some (CodePoint.ofChar '|')) :
    uncell (c :: t) = c :: uncell t := by
  cases t with
  | nil => rfl
  | cons d rest =>
      have hd : d ≠ '|' := fun h => ht (congrArg some h)
      rw [uncell, if_neg (fun h => hd h.2)]

theorem uncell_cell (t : Text) : uncell (cell t) = t := by
  induction t with
  | nil => rfl
  | cons c rest ih =>
      by_cases hc : c = '|'
      · subst hc
        rw [cell_cons_pipe, uncell, if_pos ⟨rfl, rfl⟩, ih]
      · rw [cell_cons_of_ne hc, uncell_cons (head?_cell_ne rest), ih]

theorem dropEnd?_append (t ending : Text) : dropEnd? ending (t ++ ending) = some t := by
  rw [dropEnd?, List.reverse_append, Text.dropStart?_append, Option.map_some, List.reverse_reverse]

theorem readRow_row (label t : Text) : readRow label (row label (cell t)) = some t := by
  have hrow : row label (cell t) =
      ("| **" ++ label ++ "**| ") ++ (cell t ++ Text.ofString " |") := List.append_assoc _ _ _
  rw [readRow, hrow, Text.dropStart?_append]
  simp only [Option.bind_eq_bind, Option.bind_some, dropEnd?_append, uncell_cell, Option.pure_def]

/-! ## Blocks -/

theorem readField_section (s : FieldSection) :
    readField s.field.name ("**Description**: " ++ s.description)
      (row "Type" (cell s.field.type)) (row "Required" s.requiredText)
      (row "Attributes" (cell s.attributeLine)) = some (ShownField.ofSection s) := by
  have hrequired : readRow "Required" (row "Required" s.requiredText) = some s.requiredText := by
    rw [← cell_requiredText, readRow_row, cell_requiredText]
  have hyes : decide (s.requiredText = "Yes") = s.field.isRequired := by
    unfold FieldSection.requiredText
    cases s.field.isRequired <;> decide
  rw [readField, Text.dropStart?_append, readRow_row, hrequired, readRow_row]
  simp only [Option.bind_eq_bind, Option.bind_some, Option.pure_def, hyes]
  rfl

theorem readBlocks_fieldLines {s : FieldSection} (htable : tableLines s = tableRows s)
    (rest : List Text) :
    readBlocks (fieldLines s ++ rest) =
      (readBlocks rest).map fun (fields, models) => (ShownField.ofSection s :: fields, models) := by
  rw [fieldLines, htable, tableRows]
  simp only [List.cons_append, List.nil_append]
  rw [readBlocks, Text.dropStart?_append]
  simp only [readField_section, Option.bind_eq_bind, Option.bind_some]
  cases readBlocks rest <;> rfl

theorem readBlocks_flatMap_fieldLines {sections : List FieldSection}
    (htables : ∀ s ∈ sections, tableLines s = tableRows s) (rest : List Text) :
    readBlocks (sections.flatMap fieldLines ++ rest) =
      (readBlocks rest).map fun (fields, models) =>
        (sections.map ShownField.ofSection ++ fields, models) := by
  induction sections with
  | nil => simp
  | cons s others ih =>
      rw [List.forall_mem_cons] at htables
      rw [List.flatMap_cons, List.append_assoc, readBlocks_fieldLines htables.1, ih htables.2]
      cases readBlocks rest <;> rfl

theorem readBlocks_modelLines {s : ModelSection}
    (htables : ∀ t ∈ s.fields, tableLines t = tableRows t) {rest : List Text}
    {models : List ShownModel} (hrest : readBlocks rest = some ([], models)) :
    readBlocks (modelLines s ++ rest) = some ([], ShownModel.ofSection s :: models) := by
  -- The heading of a field has one number sign more, in the place of the blank.
  have hheading : dropStart? "### " ("## " ++ s.model.name) = none :=
    Text.dropStart?_of_differs (Text.differs_append (by decide) _)
  rw [modelLines]
  simp only [List.cons_append]
  rw [readBlocks, hheading]
  simp only [Text.dropStart?_append, Option.bind_eq_bind, Option.bind_some,
    readBlocks_flatMap_fieldLines htables, hrest, Option.map_some, List.append_nil]
  rfl

theorem readBlocks_flatMap_modelLines {sections : List ModelSection}
    (htables : ∀ s ∈ sections, ∀ t ∈ s.fields, tableLines t = tableRows t) :
    readBlocks (sections.flatMap modelLines ++ [[]]) =
      some ([], sections.map ShownModel.ofSection) := by
  induction sections with
  | nil => rfl
  | cons s rest ih =>
      rw [List.forall_mem_cons] at htables
      rw [List.flatMap_cons, List.append_assoc, readBlocks_modelLines htables.1 (ih htables.2)]
      rfl

/-! ## The document -/

theorem read_document {title : Text} {models : List Model} {sections : List ModelSection}
    (hsections : ModelSection.listOfModels models = .ok sections) (htitle : OneLine title)
    (hmodels : ∀ m ∈ models, m.OneLine)
    (hattributes : ∀ s ∈ sections.flatMap ModelSection.fields, OneLine s.attributeLine) :
    read (document title sections) = some (title, sections.map ShownModel.ofSection) := by
  have htables : ∀ s ∈ sections, ∀ t ∈ s.fields, tableLines t = tableRows t := by
    intro s hs t ht
    have hmem : t ∈ sections.flatMap ModelSection.fields := List.mem_flatMap.mpr ⟨s, hs, ht⟩
    obtain ⟨m, hm, f, hf, hshows⟩ := ModelSection.exists_shows_of_mem hsections hmem
    refine tableLines_eq_tableRows ?_ (hattributes t hmem)
    rw [hshows.field]
    exact (hmodels m hm).fieldType f hf
  rw [read, split_document hsections htitle hmodels, lines]
  simp only [List.cons_append, Text.dropStart?_append, Option.bind_eq_bind, Option.bind_some,
    readBlocks_flatMap_modelLines htables]
  rfl

/-- Nothing is lost in the document: reading a document that was rendered gives the title and what
it shows of the models, if the title, the names, the types and the texts of the attributes have one
line each. -/
theorem read_render {title t : Text} {models : List Model} (h : render title models = .ok t)
    (htitle : OneLine title) (hmodels : ∀ m ∈ models, m.OneLine)
    (hattributes : ∀ m ∈ models, ∀ f ∈ m.fields, ∀ attributes, f.attributes = .ok attributes →
      ∀ a ∈ attributes, OneLine a.text) :
    ∃ sections, List.Forall₂ ModelSection.Shows models sections ∧
      read t = some (title, sections.map ShownModel.ofSection) := by
  obtain ⟨sections, hsections, rfl⟩ := Results.map_eq_ok.mp h
  refine ⟨sections, ModelSection.listOfModels_eq_ok.mp hsections,
    read_document hsections htitle hmodels fun s hs => ?_⟩
  obtain ⟨m, hm, f, hf, hshows⟩ := ModelSection.exists_shows_of_mem hsections hs
  exact oneLine_attributeLine (hattributes m hm f hf _ hshows.attributes)

/-- A model whose texts look like headings and rows, with backslashes before pipes. -/
def headingModel : Model where
  name := "## A"
  fields := [
    { name := "### f", type := "a\\|b", isRequired := true,
      default := .text "| **Type**| x |", relation := some "@relation(a\\|b)" },
    { name := "f", type := "**Description**: |" }]

theorem read_render_heading :
    ∃ t, render "## T" [headingModel, headingModel] = .ok t ∧ OneLine "## T" ∧
      (∀ m ∈ [headingModel, headingModel], m.OneLine) ∧
      (∀ m ∈ [headingModel, headingModel], ∀ f ∈ m.fields, ∀ attributes,
        f.attributes = .ok attributes → ∀ a ∈ attributes, OneLine a.text) ∧
      ∃ sections, List.Forall₂ ModelSection.Shows [headingModel, headingModel] sections ∧
        read t = some (Text.ofString "## T", sections.map ShownModel.ofSection) := by
  have htitle : OneLine "## T" := by decide
  have hmodels : ∀ m ∈ [headingModel, headingModel], m.OneLine := by
    intro m hm
    obtain rfl : m = headingModel := by simpa using hm
    exact ⟨by decide, by decide, by decide⟩
  have hattributes : ∀ m ∈ [headingModel, headingModel], ∀ f ∈ m.fields, ∀ attributes,
      f.attributes = .ok attributes → ∀ a ∈ attributes, OneLine a.text := by
    intro m hm f hf attributes h
    obtain rfl : m = headingModel := by simpa using hm
    simp only [headingModel, List.mem_cons, List.not_mem_nil, or_false] at hf
    rcases hf with rfl | rfl
    · cases h
      decide
    · cases h
      decide
  exact ⟨_, rfl, htitle, hmodels, hattributes, read_render rfl htitle hmodels hattributes⟩

end SchemaDocs.Markdown
