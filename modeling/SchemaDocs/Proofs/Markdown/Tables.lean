import SchemaDocs.Proofs.Markdown.Lines
/-!
# Tables of the Markdown document

A pipe in a cell stands after a backslash, so whatever the texts are, every row has the three pipes
of two cells.  A line feed in a cell is not escaped: only the literal of a default can bring one in,
and it breaks the row of the attributes.

* `tables_render`: how many lines the document has, and which fields have a table of five lines;
* `broken_table_render`: a default that breaks its table.
-/

namespace SchemaDocs

open Text (OneLine)

/-! ## Line feeds in defaults -/

def Field.lineBreaks (f : Field) : Nat :=
  match f.default.literal with
  | .ok l => l.count ('\n' : CodePoint)
  | .error _ => 0

namespace Field

def breaksIn (attributes : List Attribute) : Nat :=
  (attributes.map fun a => a.text.count ('\n' : CodePoint)).sum

theorem breaksIn_append (as bs : List Attribute) :
    breaksIn (as ++ bs) = breaksIn as + breaksIn bs := by
  rw [breaksIn, List.map_append, List.sum_append_nat, breaksIn, breaksIn]

theorem breaksIn_defaultAttribute {f : Field} {attributes : List Attribute}
    (h : f.defaultAttribute = .ok attributes) : breaksIn attributes = f.lineBreaks := by
  unfold defaultAttribute at h
  split at h
  · next hnull =>
      cases h
      rw [lineBreaks, hnull]
      decide
  · obtain ⟨l, hl, rfl⟩ := Results.map_eq_ok.mp h
    have hstart : List.count ('\n' : CodePoint) (Text.ofString "@default(") = 0 := by decide
    have hend : List.count ('\n' : CodePoint) (Text.ofString ")") = 0 := by decide
    rw [lineBreaks, hl]
    simp [breaksIn, List.count_append, hstart, hend]

theorem breaksIn_relationAttribute {f : Field} (h : ∀ r ∈ f.relation, OneLine r) :
    breaksIn f.relationAttribute = 0 := by
  unfold relationAttribute
  split
  · rfl
  · next relation hrelation =>
      split
      · rfl
      · simpa [breaksIn] using Text.oneLine_iff_count.mp (h relation hrelation)

theorem breaksIn_attributes {f : Field} {attributes : List Attribute}
    (h : f.attributes = .ok attributes) (hrelation : ∀ r ∈ f.relation, OneLine r) :
    breaksIn attributes = f.lineBreaks := by
  obtain ⟨default, hdefault, rfl⟩ := Results.map_eq_ok.mp h
  have hid : breaksIn (if f.isId then [{ text := "@id" }] else []) = 0 := by split <;> decide
  have hunique : breaksIn (if f.isUnique then [{ text := "@unique" }] else []) = 0 := by
    split <;> decide
  have hupdated : breaksIn (if f.updatedAt then [{ text := "@updatedAt" }] else []) = 0 := by
    split <;> decide
  simp only [breaksIn_append, hid, hunique, hupdated, breaksIn_defaultAttribute hdefault,
    breaksIn_relationAttribute hrelation]
  omega

end Field

namespace Markdown

/-! ## Pipes -/

/-- How many pipes of a text have no backslash right before them; `escaped` says whether one stands
before the text. -/
def barePipesAfter (escaped : Bool) : Text → Nat
  | [] => 0
  | c :: rest => (if c = '|' ∧ escaped = false then 1 else 0) + barePipesAfter (c == '\\') rest

def barePipes (t : Text) : Nat :=
  barePipesAfter false t

theorem barePipesAfter_append (escaped : Bool) (s t : Text) :
    ∃ before, barePipesAfter escaped (s ++ t) =
      barePipesAfter escaped s + barePipesAfter before t := by
  induction s generalizing escaped with
  | nil => exact ⟨escaped, by simp [barePipesAfter]⟩
  | cons c rest ih =>
      obtain ⟨before, h⟩ := ih (c == '\\')
      refine ⟨before, ?_⟩
      rw [List.cons_append, barePipesAfter, barePipesAfter, h]
      omega

theorem barePipesAfter_cell (escaped : Bool) (t : Text) :
    barePipesAfter escaped (cell t ++ Text.ofString " |") = 1 := by
  induction t generalizing escaped with
  | nil => cases escaped <;> decide
  | cons c rest ih =>
      by_cases hc : c = '|'
      · subst hc
        have hne : CodePoint.ofChar '\\' ≠ CodePoint.ofChar '|' := by decide
        rw [cell_cons_pipe]
        simp only [List.cons_append, barePipesAfter, ih]
        simp [hne]
      · rw [cell_cons_of_ne hc, List.cons_append, barePipesAfter, ih]
        simp [hc]

theorem barePipes_row {label : Text} (hlabel : barePipes ("| **" ++ label ++ "**| ") = 2)
    (t : Text) : barePipes (row label (cell t)) = 3 := by
  obtain ⟨before, h⟩ := barePipesAfter_append false ("| **" ++ label ++ "**| ")
    (cell t ++ Text.ofString " |")
  rw [barePipes, row, List.append_assoc, h, barePipesAfter_cell]
  rw [barePipes] at hlabel
  rw [hlabel]

theorem barePipes_of_mem_tableRows (s : FieldSection) : ∀ r ∈ tableRows s, barePipes r = 3 := by
  intro r hr
  simp only [tableRows, List.mem_cons, List.not_mem_nil, or_false] at hr
  rcases hr with rfl | rfl | rfl | rfl | rfl
  · decide
  · decide
  · exact barePipes_row (by decide) _
  · rw [← cell_requiredText]
    exact barePipes_row (by decide) _
  · exact barePipes_row (by decide) _

def IsTable (ls : List Text) : Prop :=
  ls.length = 5 ∧ ∀ l ∈ ls, barePipes l = 3

theorem isTable_tableLines_iff {s : FieldSection} (htype : OneLine s.field.type) :
    IsTable (tableLines s) ↔ OneLine s.attributeLine := by
  have hlength := length_tableLines htype
  rw [Text.oneLine_iff_count]
  constructor
  · rintro ⟨hfive, -⟩
    omega
  · intro hcount
    refine ⟨by omega, ?_⟩
    rw [tableLines_eq_tableRows htype (Text.oneLine_iff_count.mpr hcount)]
    exact barePipes_of_mem_tableRows s

/-! ## The document -/

theorem length_fieldLines {s : FieldSection} (htype : OneLine s.field.type) :
    (fieldLines s).length = 10 + s.attributeLine.count ('\n' : CodePoint) := by
  rw [fieldLines]
  simp only [List.length_cons, length_tableLines htype]
  omega

theorem length_flatMap_modelLines (sections : List ModelSection) :
    (sections.flatMap modelLines).length = 2 * sections.length +
      ((sections.flatMap ModelSection.fields).map fun s => (fieldLines s).length).sum := by
  induction sections with
  | nil => rfl
  | cons s rest ih =>
      rw [List.flatMap_cons, List.length_append, ih, List.flatMap_cons, List.map_append,
        List.sum_append_nat, modelLines]
      simp only [List.length_cons, List.length_flatMap]
      omega

theorem sum_map_add_const {α : Type} (n : Nat) (f : α → Nat) (xs : List α) :
    (xs.map fun x => n + f x).sum = n * xs.length + (xs.map f).sum := by
  induction xs with
  | nil => rfl
  | cons x rest ih =>
      rw [List.map_cons, List.sum_cons, ih, List.map_cons, List.sum_cons, List.length_cons,
        Nat.mul_succ]
      omega

/-- The lines of the document, if only the literals of defaults have line feeds: one for the title,
two for a model, ten for a field and one more for each line feed in its default.  A field has a
table of five rows with two cells each exactly if there is no line feed in its default. -/
theorem tables_render {title document : Text} {models : List Model}
    (h : render title models = .ok document) (htitle : OneLine title)
    (hmodels : ∀ m ∈ models, m.OneLine)
    (hrelations : ∀ m ∈ models, ∀ f ∈ m.fields, ∀ r ∈ f.relation, OneLine r) :
    ∃ sections, List.Forall₂ ModelSection.Shows models sections ∧
      Text.split '\n' document = lines title sections ++ [[]] ∧
      document.count ('\n' : CodePoint) = 1 + 2 * models.length +
        10 * (models.flatMap Model.fields).length +
        ((models.flatMap Model.fields).map Field.lineBreaks).sum ∧
      ∀ s ∈ sections.flatMap ModelSection.fields,
        IsTable (tableLines s) ↔ s.field.lineBreaks = 0 := by
  obtain ⟨sections, hsections, rfl⟩ := Results.map_eq_ok.mp h
  have hsplit := split_document hsections htitle hmodels
  have hfields : ∀ s ∈ sections.flatMap ModelSection.fields, OneLine s.field.type ∧
      s.attributeLine.count ('\n' : CodePoint) = s.field.lineBreaks := by
    intro s hs
    obtain ⟨m, hm, f, hf, hshows⟩ := ModelSection.exists_shows_of_mem hsections hs
    rw [hshows.field, count_newline_attributeLine]
    exact ⟨(hmodels m hm).fieldType f hf,
      Field.breaksIn_attributes hshows.attributes (hrelations m hm f hf)⟩
  refine ⟨sections, ModelSection.listOfModels_eq_ok.mp hsections, hsplit, ?_, fun s hs => ?_⟩
  · have hlength := congrArg List.length hsplit
    have hsum : ((sections.flatMap ModelSection.fields).map fun s => (fieldLines s).length) =
        (sections.flatMap ModelSection.fields).map fun s => 10 + s.field.lineBreaks :=
      List.map_congr_left fun s hs => by
        rw [length_fieldLines (hfields s hs).1, (hfields s hs).2]
    have hshown := ModelSection.map_field_flatMap hsections
    rw [Text.length_split, lines, List.length_append, List.length_cons, length_flatMap_modelLines,
      hsum, sum_map_add_const, ModelSection.length_eq hsections] at hlength
    rw [← hshown, List.length_map, List.map_map, Function.comp_def]
    rw [List.length_singleton] at hlength
    omega
  · rw [isTable_tableLines_iff (hfields s hs).1, Text.oneLine_iff_count, (hfields s hs).2]

/-- A model whose names, types and relation are in pipes and backslashes, and a default with a line
feed inside a list. -/
def brokenModel : Model where
  name := "A|B"
  fields := [
    { name := "f\\|", type := "T|", isId := true, relation := some "@relation(T|)" },
    { name := "g", type := "T", default := .list .readOnly [.text "a\nb", .text "|"] }]

theorem oneLine_brokenModel : brokenModel.OneLine where
  name := by decide
  fieldName := by decide
  fieldType := by decide

theorem tables_render_broken :
    ∃ document, render "#" [brokenModel] = .ok document ∧ OneLine "#" ∧
      (∀ m ∈ [brokenModel], m.OneLine) ∧
      (∀ m ∈ [brokenModel], ∀ f ∈ m.fields, ∀ r ∈ f.relation, OneLine r) ∧
      ∃ sections, List.Forall₂ ModelSection.Shows [brokenModel] sections ∧
        Text.split '\n' document = lines "#" sections ++ [[]] ∧
        document.count ('\n' : CodePoint) = 1 + 2 * [brokenModel].length +
          10 * ([brokenModel].flatMap Model.fields).length +
          (([brokenModel].flatMap Model.fields).map Field.lineBreaks).sum ∧
        ∀ s ∈ sections.flatMap ModelSection.fields,
          IsTable (tableLines s) ↔ s.field.lineBreaks = 0 := by
  have htitle : OneLine "#" := by decide
  have hmodels : ∀ m ∈ [brokenModel], m.OneLine := by
    intro m hm
    rw [List.mem_singleton.mp hm]
    exact oneLine_brokenModel
  have hrelations : ∀ m ∈ [brokenModel], ∀ f ∈ m.fields, ∀ r ∈ f.relation, OneLine r := by
    decide
  exact ⟨_, rfl, htitle, hmodels, hrelations, tables_render rfl htitle hmodels hrelations⟩

/-- Its document has a line too many. -/
theorem broken_table_render :
    ∃ document, render "#" [brokenModel] = .ok document ∧ OneLine "#" ∧ brokenModel.OneLine ∧
      (∀ f ∈ brokenModel.fields, ∀ r ∈ f.relation, OneLine r) ∧
      document.count ('\n' : CodePoint) ≠ 1 + 2 * [brokenModel].length +
        10 * ([brokenModel].flatMap Model.fields).length :=
  ⟨_, rfl, by decide, oneLine_brokenModel, by decide, by decide +kernel⟩

end Markdown

end SchemaDocs
