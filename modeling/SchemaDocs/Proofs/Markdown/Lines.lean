import SchemaDocs.Markdown
import SchemaDocs.Proofs.Document.Sections
import SchemaDocs.Proofs.Text.Split
/-!
# The lines of the Markdown document

The document is a sequence of lines, each ended by a line feed.  If the title, the names and the
types have one line each, then every heading and description is a line of its own, and the lines of
a field stand together, after an empty line.  Only a table can have more lines than it has rows.

* `split_document`: the lines of the document in order.
-/

namespace SchemaDocs

namespace Text

def OneLine (t : Text) : Prop :=
  ('\n' : CodePoint) ∉ t

instance (t : Text) : Decidable (OneLine t) :=
  inferInstanceAs (Decidable (¬ _))

theorem OneLine.append {s t : Text} (hs : OneLine s) (ht : OneLine t) : OneLine (s ++ t) := by
  unfold OneLine at *
  rw [List.mem_append, not_or]
  exact ⟨hs, ht⟩

theorem OneLine.split {t : Text} (ht : OneLine t) : Text.split '\n' t = [t] :=
  split_of_notMem ht

theorem oneLine_iff_count {t : Text} : OneLine t ↔ t.count ('\n' : CodePoint) = 0 :=
  List.count_eq_zero.symm

end Text

open Text (OneLine)

structure Model.OneLine (m : Model) : Prop where
  name : m.name.OneLine
  fieldName : ∀ f ∈ m.fields, f.name.OneLine
  fieldType : ∀ f ∈ m.fields, f.type.OneLine

namespace Markdown

/-! ## The lines in order -/

def tableLines (s : FieldSection) : List Text :=
  Text.split '\n' (fieldTable s)

/-- The lines of a field, from the empty line before its heading on. -/
def fieldLines (s : FieldSection) : List Text :=
  [] :: ("### " ++ s.field.name) :: [] :: ("**Description**: " ++ s.description) :: [] ::
    tableLines s

def modelLines (s : ModelSection) : List Text :=
  [] :: ("## " ++ s.model.name) :: s.fields.flatMap fieldLines

def lines (title : Text) (sections : List ModelSection) : List Text :=
  ("# " ++ title) :: sections.flatMap modelLines

/-! ## Splitting the document -/

theorem split_blocks (block : Text) (blocks : List Text) :
    Text.split '\n' (Text.join "\n\n" (block :: blocks) ++ Text.ofString "\n") =
      Text.split '\n' block ++ blocks.flatMap (fun b => [] :: Text.split '\n' b) ++ [[]] := by
  induction blocks generalizing block with
  | nil =>
      rw [List.flatMap_nil, List.append_nil]
      exact Text.split_append_cons '\n' block []
  | cons next rest ih =>
      have hpair (t : Text) : Text.ofString "\n\n" ++ t =
          CodePoint.ofChar '\n' :: CodePoint.ofChar '\n' :: t := rfl
      rw [Text.join_cons _ _ (by simp), List.append_assoc, List.append_assoc, hpair,
        Text.split_append_cons, Text.split_cons_self, ih, List.flatMap_cons]
      simp only [List.append_assoc, List.cons_append]

theorem flatMap_split_fieldEntry {s : FieldSection} (hname : OneLine s.field.name)
    (hdescription : OneLine s.description) :
    (fieldEntry s).flatMap (fun b => [] :: Text.split '\n' b) = fieldLines s := by
  have hheading : OneLine "### " := by decide
  have hlabel : OneLine "**Description**: " := by decide
  simp only [fieldEntry, List.flatMap_cons, List.flatMap_nil, (hheading.append hname).split,
    (hlabel.append hdescription).split, List.append_nil]
  rfl

theorem flatMap_split_modelEntry {s : ModelSection} (hname : OneLine s.model.name)
    (hfields : ∀ t ∈ s.fields, OneLine t.field.name ∧ OneLine t.description) :
    (modelEntry s).flatMap (fun b => [] :: Text.split '\n' b) = modelLines s := by
  have hheading : OneLine "## " := by decide
  have hentries : s.fields.flatMap
      (fun t => (fieldEntry t).flatMap fun b => [] :: Text.split '\n' b) =
      s.fields.flatMap fieldLines :=
    List.flatMap_congr fun t ht => flatMap_split_fieldEntry (hfields t ht).1 (hfields t ht).2
  rw [modelEntry, List.flatMap_cons, (hheading.append hname).split, List.flatMap_assoc, hentries]
  rfl

theorem oneLine_description {model : Text} {f : Field} (hmodel : OneLine model)
    (hname : OneLine f.name) : OneLine (f.description model) := by
  have hstart : OneLine "The " := by decide
  have hmiddle : OneLine " field of the " := by decide
  have hend : OneLine " model." := by decide
  exact (((hstart.append hname).append hmiddle).append hmodel).append hend

theorem split_document {title : Text} {models : List Model} {sections : List ModelSection}
    (hsections : ModelSection.listOfModels models = .ok sections) (htitle : OneLine title)
    (hmodels : ∀ m ∈ models, m.OneLine) :
    Text.split '\n' (document title sections) = lines title sections ++ [[]] := by
  have hheading : OneLine "# " := by decide
  have hentries : sections.flatMap
      (fun s => (modelEntry s).flatMap fun b => [] :: Text.split '\n' b) =
      sections.flatMap modelLines := by
    refine List.flatMap_congr fun s hs => ?_
    obtain ⟨m, hm, hshows⟩ :=
      Results.exists_of_mem_right (ModelSection.listOfModels_eq_ok.mp hsections) hs
    have hline := hmodels m hm
    refine flatMap_split_modelEntry (by rw [hshows.model]; exact hline.name) fun t ht => ?_
    obtain ⟨f, hf, hfield⟩ := Results.exists_of_mem_right hshows.fields ht
    rw [hfield.field, hfield.description]
    exact ⟨hline.fieldName f hf, oneLine_description hline.name (hline.fieldName f hf)⟩
  rw [document, split_blocks, (hheading.append htitle).split, List.flatMap_assoc, hentries]
  rfl

/-! ## The lines of a table -/

def tableRows (s : FieldSection) : List Text := [
  "| Property | Value |",
  "|----------|-------|",
  row "Type" (cell s.field.type),
  row "Required" s.requiredText,
  row "Attributes" (cell s.attributeLine)]

@[simp] theorem cell_nil : cell [] = [] := rfl

theorem cell_cons_pipe (t : Text) :
    cell (CodePoint.ofChar '|' :: t) =
      CodePoint.ofChar '\\' :: CodePoint.ofChar '|' :: cell t := rfl

theorem cell_cons_of_ne {c : CodePoint} (hc : c ≠ '|') (t : Text) :
    cell (c :: t) = c :: cell t := by
  simp [cell, Text.replace, hc]

theorem count_newline_cell (t : Text) :
    (cell t).count ('\n' : CodePoint) = t.count ('\n' : CodePoint) := by
  induction t with
  | nil => rfl
  | cons c rest ih =>
      by_cases hc : c = '|'
      · subst hc
        rw [cell_cons_pipe, List.count_cons_of_ne (by decide),
          List.count_cons_of_ne (by decide), ih, List.count_cons_of_ne (by decide)]
      · rw [cell_cons_of_ne hc, List.count_cons, List.count_cons, ih]

theorem count_newline_row {label : Text} (hlabel : OneLine label) (value : Text) :
    (row label value).count ('\n' : CodePoint) = value.count ('\n' : CodePoint) := by
  have hstart : List.count ('\n' : CodePoint) (Text.ofString "| **") = 0 := by decide
  have hmiddle : List.count ('\n' : CodePoint) (Text.ofString "**| ") = 0 := by decide
  have hend : List.count ('\n' : CodePoint) (Text.ofString " |") = 0 := by decide
  rw [row, List.count_append, List.count_append, List.count_append, List.count_append, hstart,
    Text.oneLine_iff_count.mp hlabel, hmiddle, hend]
  omega

theorem cell_requiredText (s : FieldSection) : cell s.requiredText = s.requiredText := by
  unfold FieldSection.requiredText
  split <;> decide

theorem oneLine_requiredText (s : FieldSection) : OneLine s.requiredText := by
  unfold FieldSection.requiredText
  split <;> decide

theorem count_newline_attributeLine (s : FieldSection) :
    s.attributeLine.count ('\n' : CodePoint) =
      (s.attributes.map fun a => a.text.count ('\n' : CodePoint)).sum := by
  have hcomma : CodePoint.ofChar '\n' ∉ Text.ofString ", " := by decide
  have hjoin := Text.count_join hcomma (s.attributes.map Attribute.text)
  rw [List.map_map] at hjoin
  unfold FieldSection.attributeLine
  dsimp only
  split
  · next hempty =>
      rw [List.isEmpty_iff.mp hempty] at hjoin
      exact hjoin
  · exact hjoin

theorem oneLine_attributeLine {s : FieldSection} (h : ∀ a ∈ s.attributes, OneLine a.text) :
    OneLine s.attributeLine := by
  rw [Text.oneLine_iff_count, count_newline_attributeLine]
  refine List.sum_eq_zero_iff_forall_eq_nat.mpr fun n hn => ?_
  obtain ⟨a, ha, rfl⟩ := List.mem_map.mp hn
  exact Text.oneLine_iff_count.mp (h a ha)

theorem tableLines_eq_flatMap (s : FieldSection) :
    tableLines s = (tableRows s).flatMap (Text.split '\n') :=
  Text.split_join '\n' (List.cons_ne_nil _ _)

/-- A table has five rows; what breaks them into more lines are the line feeds in the attributes. -/
theorem length_tableLines {s : FieldSection} (htype : OneLine s.field.type) :
    (tableLines s).length = 5 + s.attributeLine.count ('\n' : CodePoint) := by
  have hnames : List.count ('\n' : CodePoint) (Text.ofString "| Property | Value |") = 0 := by
    decide
  have hrule : List.count ('\n' : CodePoint) (Text.ofString "|----------|-------|") = 0 := by
    decide
  have htypeLabel : OneLine "Type" := by decide
  have hrequiredLabel : OneLine "Required" := by decide
  have hattributesLabel : OneLine "Attributes" := by decide
  rw [tableLines_eq_flatMap, List.length_flatMap]
  simp only [tableRows, List.map_cons, List.map_nil, List.sum_cons, List.sum_nil, Text.length_split,
    hnames, hrule, count_newline_row htypeLabel, count_newline_row hrequiredLabel,
    count_newline_row hattributesLabel, count_newline_cell,
    Text.oneLine_iff_count.mp htype, Text.oneLine_iff_count.mp (oneLine_requiredText s)]
  omega

theorem tableLines_eq_tableRows {s : FieldSection} (htype : OneLine s.field.type)
    (hattributes : OneLine s.attributeLine) : tableLines s = tableRows s := by
  have hrows : ∀ r ∈ tableRows s, Text.split '\n' r = [r] := by
    intro r hr
    refine Text.OneLine.split (Text.oneLine_iff_count.mpr ?_)
    simp only [tableRows, List.mem_cons, List.not_mem_nil, or_false] at hr
    rcases hr with rfl | rfl | rfl | rfl | rfl
    · decide
    · decide
    · rw [count_newline_row (by decide), count_newline_cell, Text.oneLine_iff_count.mp htype]
    · rw [count_newline_row (by decide), Text.oneLine_iff_count.mp (oneLine_requiredText s)]
    · rw [count_newline_row (by decide), count_newline_cell, Text.oneLine_iff_count.mp hattributes]
  rw [tableLines_eq_flatMap, List.flatMap_congr hrows, List.flatMap_singleton']

end Markdown

end SchemaDocs
