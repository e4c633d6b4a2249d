import SchemaDocs.Proofs.Document.Rendering
import SchemaDocs.Proofs.Text.Split
/-!
# Documents of models put together

What stands in a document for a model does not depend on the models before and after it.  So the
documents of two lists of models, one after the other, are made of the parts of both: in Markdown
the blocks after the heading, in the page the navigation links, the sections and the records of the
models.

* `Html.PageParts`: what a page shows of its models;
* `Html.document_eq_map`: a page is its parts in a frame that only its title counts for;
* `render_append`: both documents of models put together.
-/

namespace SchemaDocs

open Results

namespace ModelSection

theorem listOfModels_append (xs ys : List Model) :
    listOfModels (xs ++ ys) =
      (do let sections ← listOfModels xs
          let others ← listOfModels ys
          return sections ++ others) := by
  simp only [listOfModels_eq_mapM, List.mapM_append]

theorem listOfModels_append_eq_error {xs ys : List Model} {fault : RenderFault} :
    listOfModels (xs ++ ys) = .error fault ↔
      listOfModels xs = .error fault ∨
        (∃ sections, listOfModels xs = .ok sections) ∧ listOfModels ys = .error fault := by
  rw [listOfModels_append, bind_eq_error]
  constructor
  · rintro (hfirst | ⟨sections, hsections, hrest⟩)
    · exact .inl hfirst
    · rcases bind_eq_error.mp hrest with hothers | ⟨others, -, hend⟩
      · exact .inr ⟨⟨sections, hsections⟩, hothers⟩
      · cases hend
  · rintro (hfirst | ⟨⟨sections, hsections⟩, hothers⟩)
    · exact .inl hfirst
    · exact .inr ⟨sections, hsections, bind_eq_error.mpr (.inl hothers)⟩

theorem listOfModels_append_of_ok {xs ys : List Model} {sections others : List ModelSection}
    (hsections : listOfModels xs = .ok sections) (hothers : listOfModels ys = .ok others) :
    listOfModels (xs ++ ys) = .ok (sections ++ others) := by
  rw [listOfModels_append, hsections, hothers]
  rfl

end ModelSection

/-! ## Markdown -/

namespace Markdown

/-- The blocks after the heading of the document, each after an empty line. -/
def body (sections : List ModelSection) : Text :=
  (sections.flatMap modelEntry).flatMap fun block => "\n\n" ++ block

theorem document_eq (title : Text) (sections : List ModelSection) :
    document title sections = "# " ++ title ++ body sections ++ "\n" := by
  have hblocks := Text.join_cons_append "\n\n" ("# " ++ title) [] (sections.flatMap modelEntry)
  rw [List.nil_append] at hblocks
  rw [document, hblocks]
  rfl

theorem body_append (sections others : List ModelSection) :
    body (sections ++ others) = body sections ++ body others := by
  rw [body, List.flatMap_append, List.flatMap_append]
  rfl

theorem render_eq_of_sections {models : List Model} {sections : List ModelSection} (title : Text)
    (h : ModelSection.listOfModels models = .ok sections) :
    render title models = .ok ("# " ++ title ++ body sections ++ "\n") := by
  rw [render, h, ← document_eq]
  rfl

end Markdown

/-! ## The page -/

namespace Html

open Fragment (markup shown script)

/-- What a page shows of its models: the navigation links, the sections of the content, and the
documents of the models in the embedded record. -/
structure PageParts where
  links : Text
  sections : Text
  models : List Json

namespace PageParts

instance : Append PageParts where
  append a b := {
    links := a.links ++ b.links
    sections := a.sections ++ b.sections
    models := a.models ++ b.models }

def ofSections (sections : List ModelSection) : Except Unwritable PageParts := do
  let records ← ModelSection.exportRecords sections
  let models ← Value.toJsonItems records
  return {
    links := pageText (sections.flatMap modelLinks)
    sections := pageText (sections.flatMap modelSection)
    models }

def record (title : Text) (parts : PageParts) : Json :=
  .object [("models", .array parts.models), ("title", .string title)]

def page (title : Text) (parts : PageParts) : Text :=
  pageText [
    markup headStart, markup "    <title>", shown title, markup "</title>\n", markup headEnd,
    markup parts.links,
    markup "</div>\n<div class=\"content\">\n    <h1>", shown title, markup "</h1>\n",
    markup parts.sections,
    markup "</div>\n<script>\n    const schemaDocument = ", script (parts.record title),
    markup ";\n", markup exportScript, markup "        link.download = ",
    script (.string exportFileName), markup ";\n", markup pageEnd]

theorem ofSections_append {sections others : List ModelSection} {a b : PageParts}
    (ha : ofSections sections = .ok a) (hb : ofSections others = .ok b) :
    ofSections (sections ++ others) = .ok (a ++ b) := by
  obtain ⟨records, hrecords, ha⟩ := bind_eq_ok.mp ha
  obtain ⟨models, hmodels, ha⟩ := bind_eq_ok.mp ha
  obtain ⟨records', hrecords', hb⟩ := bind_eq_ok.mp hb
  obtain ⟨models', hmodels', hb⟩ := bind_eq_ok.mp hb
  cases ha
  cases hb
  have hall : ModelSection.exportRecords (sections ++ others) = .ok (records ++ records') := by
    rw [ModelSection.exportRecords_eq_mapM] at hrecords hrecords' ⊢
    rw [List.mapM_append, hrecords, hrecords']
    rfl
  have hdocuments : Value.toJsonItems (records ++ records') = .ok (models ++ models') := by
    rw [Value.toJsonItems_eq_mapM] at hmodels hmodels' ⊢
    rw [List.mapM_append, hmodels, hmodels']
    rfl
  rw [ofSections, hall]
  refine bind_eq_ok.mpr ⟨_, rfl, bind_eq_ok.mpr ⟨_, hdocuments, ?_⟩⟩
  simp only [List.flatMap_append, pageText_append]
  rfl

end PageParts

theorem toJson?_documentRecord (title : Text) (records : List Value) :
    (documentRecord title records).toJson? = (Value.toJsonItems records).map fun models =>
      .object [("models", .array models), ("title", .string title)] := by
  rw [documentRecord, Value.toJson?, Value.toJsonMembers, Value.toJsonMembers, Value.toJson?,
    Value.toJson?]
  cases Value.toJsonItems records <;> rfl

theorem pageText_page_of_models (title : Text) (sections : List ModelSection) (models : List Json) :
    pageText (page title sections (.object [("models", .array models), ("title", .string title)])) =
      PageParts.page title {
        links := pageText (sections.flatMap modelLinks)
        sections := pageText (sections.flatMap modelSection)
        models } := by
  simp only [page, PageParts.page, PageParts.record, pageText_append, pageText_cons, pageText_nil,
    Fragment.text, List.append_assoc, List.append_nil]

theorem document_eq_map (title : Text) (sections : List ModelSection) :
    document title sections = (PageParts.ofSections sections).map (PageParts.page title) := by
  unfold document exportRecord PageParts.ofSections
  cases ModelSection.exportRecords sections with
  | error cause => rfl
  | ok records =>
      have hdata := toJson?_documentRecord title records
      unfold documentRecord at hdata
      simp only [Except.map, bind, Except.bind, hdata]
      cases Value.toJsonItems records with
      | error cause => rfl
      | ok models => exact congrArg Except.ok (pageText_page_of_models title sections models)

theorem render_of_parts {models : List Model} {sections : List ModelSection} {a : PageParts}
    (h : ModelSection.listOfModels models = .ok sections)
    (ha : PageParts.ofSections sections = .ok a) (title : Text) :
    render title models = .ok (a.page title) := by
  refine bind_eq_ok.mpr ⟨sections, h, ?_⟩
  rw [document_eq_map, ha]
  rfl

theorem exists_parts {models : List Model} {sections : List ModelSection}
    (h : ModelSection.listOfModels models = .ok sections) :
    ∃ a, PageParts.ofSections sections = .ok a := by
  obtain ⟨record, data, hrecord, hdata, -⟩ := exists_documentRecord [] h
  have hdocument : document [] sections = .ok (pageText (page [] sections data)) :=
    bind_eq_ok.mpr ⟨record, hrecord, bind_eq_ok.mpr ⟨data, hdata, rfl⟩⟩
  rw [document_eq_map] at hdocument
  obtain ⟨a, ha, -⟩ := map_eq_ok.mp hdocument
  exact ⟨a, ha⟩

end Html

/-- Documents of models put together, for every title and all models that have sections: the
Markdown is that of the first models without its last line feed, followed by that of the others
without its heading, and the page has the parts of the first page followed by those of the other one
in the same frame.  Models that have no sections fail for the first models if these have none. -/
theorem render_append (title : Text) (xs ys : List Model) :
    (∀ fault, ModelSection.listOfModels (xs ++ ys) = .error fault ↔
      ModelSection.listOfModels xs = .error fault ∨
        (∃ sections, ModelSection.listOfModels xs = .ok sections) ∧
          ModelSection.listOfModels ys = .error fault) ∧
    ∀ sections others, ModelSection.listOfModels xs = .ok sections →
      ModelSection.listOfModels ys = .ok others →
      (∃ m n, Markdown.render title xs = .ok (m ++ "\n") ∧
        Markdown.render title ys = .ok ("# " ++ title ++ n) ∧
        Markdown.render title (xs ++ ys) = .ok (m ++ n)) ∧
      ∃ a b, Html.PageParts.ofSections sections = .ok a ∧
        Html.PageParts.ofSections others = .ok b ∧
        Html.render title xs = .ok (a.page title) ∧
        Html.render title ys = .ok (b.page title) ∧
        Html.render title (xs ++ ys) = .ok ((a ++ b).page title) := by
  refine ⟨fun _ => ModelSection.listOfModels_append_eq_error, ?_⟩
  intro sections others hsections hothers
  have hall := ModelSection.listOfModels_append_of_ok hsections hothers
  constructor
  · refine ⟨"# " ++ title ++ Markdown.body sections, Markdown.body others ++ "\n",
      Markdown.render_eq_of_sections title hsections, ?_, ?_⟩
    · rw [Markdown.render_eq_of_sections title hothers, List.append_assoc]
    · rw [Markdown.render_eq_of_sections title hall, Markdown.body_append]
      simp only [List.append_assoc]
  · obtain ⟨a, ha⟩ := Html.exists_parts hsections
    obtain ⟨b, hb⟩ := Html.exists_parts hothers
    exact ⟨a, b, ha, hb, Html.render_of_parts hsections ha title,
      Html.render_of_parts hothers hb title,
      Html.render_of_parts hall (Html.PageParts.ofSections_append ha hb) title⟩

def linkedModel : Model where
  name := "L"
  fields := [{ name := "m", type := "M", isRequired := true, relation := some "@relation(M)" }]

theorem render_append_linkedModel :
    ∃ sections others, ModelSection.listOfModels [mixedDefault] = .ok sections ∧
      ModelSection.listOfModels [linkedModel] = .ok others ∧
      (∃ m n, Markdown.render "D" [mixedDefault] = .ok (m ++ "\n") ∧
        Markdown.render "D" [linkedModel] = .ok ("# " ++ "D" ++ n) ∧
        Markdown.render "D" [mixedDefault, linkedModel] = .ok (m ++ n)) ∧
      ∃ a b, Html.PageParts.ofSections sections = .ok a ∧
        Html.PageParts.ofSections others = .ok b ∧
        Html.render "D" [mixedDefault] = .ok (a.page "D") ∧
        Html.render "D" [linkedModel] = .ok (b.page "D") ∧
        Html.render "D" [mixedDefault, linkedModel] = .ok ((a ++ b).page "D") :=
  ⟨_, _, rfl, rfl, (render_append "D" [mixedDefault] [linkedModel]).2 _ _ rfl rfl⟩

end SchemaDocs
