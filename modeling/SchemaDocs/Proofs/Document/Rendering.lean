import SchemaDocs.Markdown
import SchemaDocs.Proofs.Document.ExportRecord
import SchemaDocs.Proofs.Html.Layout
/-!
# Rendering fails on the sections only

Sections that show models have an embedded record, and the record has a JSON document: a default
that JSON cannot express was replaced in it by its literal.  So both renderings of models fail
exactly if the models have no sections, and with the same fault.

* `IsDocumentRecord.hasDocument`: the record of a document has a JSON document;
* `fault_render_iff`: the two renderings fail together, and what stands for each default.
-/

namespace SchemaDocs

open Results

namespace Value

theorem hasDocument_null : null.HasDocument :=
  ⟨.null, rfl⟩

theorem hasDocument_bool (b : Bool) : (bool b).HasDocument :=
  ⟨.bool b, rfl⟩

theorem hasDocument_text (t : Text) : (text t).HasDocument :=
  ⟨.string t, rfl⟩

theorem hasDocument_optionalText (t : Option Text) : (t.elim null text).HasDocument := by
  cases t with
  | none => exact hasDocument_null
  | some t => exact hasDocument_text t

/-- Whether a value stands for a default in the embedded record: it is the writable form of the
default if that has a JSON document, and else the literal of the default. -/
def Embeds (default v : Value) : Prop :=
  (default.unlock.HasDocument ∧ v = default.unlock) ∨
    (¬ default.unlock.HasDocument ∧ ∃ l, default.literal = .ok l ∧ v = .text l)

theorem embeds_of_embeddable {default v : Value} (h : default.unlock.embeddable = .ok v) :
    default.Embeds v := by
  unfold embeddable at h
  split at h
  · next j hj =>
      cases h
      exact .inl ⟨⟨j, hj⟩, rfl⟩
  · cases h
  · next cause _ hcause =>
      obtain ⟨l, hl, rfl⟩ := map_eq_ok.mp h
      rw [literal_unlock] at hl
      refine .inr ⟨?_, l, hl, rfl⟩
      rintro ⟨j, hj⟩
      rw [hcause] at hj
      cases hj

theorem Embeds.hasDocument {default v : Value} (h : default.Embeds v) : v.HasDocument := by
  rcases h with ⟨hdefault, rfl⟩ | ⟨-, l, -, rfl⟩
  · exact hdefault
  · exact hasDocument_text l

end Value

open Value (hasDocument_bool hasDocument_text hasDocument_optionalText hasDocument_list_iff
  hasDocument_map_iff)

/-! ## Records with a document -/

theorem Attribute.hasDocument_toValue (a : Attribute) : a.toValue.HasDocument := by
  refine hasDocument_map_iff.mpr ?_
  simp only [List.forall_mem_cons]
  exact ⟨hasDocument_text a.text, hasDocument_optionalText a.target, List.forall_mem_nil _⟩

theorem Field.hasDocument_recordEntries (f : Field) {default : Value} (h : default.HasDocument) :
    ∀ e ∈ f.recordEntries default, e.2.HasDocument := by
  simp only [recordEntries, List.forall_mem_cons]
  exact ⟨hasDocument_text f.name, hasDocument_text f.type, hasDocument_bool f.isRequired,
    hasDocument_bool f.isUnique, hasDocument_bool f.isId, h, hasDocument_bool f.updatedAt,
    hasDocument_optionalText f.relation, List.forall_mem_nil _⟩

namespace FieldSection

theorem hasDocument_shownEntries (s : FieldSection) :
    ∀ e ∈ s.shownEntries, e.2.HasDocument := by
  have hattributes : (Value.list .writable (s.attributes.map Attribute.toValue)).HasDocument :=
    hasDocument_list_iff.mpr (List.forall_mem_map.mpr fun a _ => a.hasDocument_toValue)
  simp only [shownEntries, List.forall_mem_cons]
  exact ⟨hasDocument_text s.description, hattributes, List.forall_mem_nil _⟩

def IsRecord (s : FieldSection) (r : Value) : Prop :=
  ∃ default, s.field.default.Embeds default ∧ r = s.record default

theorem isRecord_of_exportRecord {s : FieldSection} {r : Value} (h : s.exportRecord = .ok r) :
    s.IsRecord r := by
  obtain ⟨default, hdefault, rfl⟩ := exportRecord_eq_ok.mp h
  exact ⟨default, Value.embeds_of_embeddable hdefault, rfl⟩

theorem IsRecord.hasDocument {s : FieldSection} {r : Value} (h : s.IsRecord r) :
    r.HasDocument := by
  obtain ⟨default, hdefault, rfl⟩ := h
  exact hasDocument_map_iff.mpr (List.forall_mem_append.mpr
    ⟨s.field.hasDocument_recordEntries hdefault.hasDocument, s.hasDocument_shownEntries⟩)

end FieldSection

namespace ModelSection

def IsRecord (s : ModelSection) (r : Value) : Prop :=
  ∃ fields, List.Forall₂ FieldSection.IsRecord s.fields fields ∧ r = s.record fields

theorem isRecord_of_exportRecord {s : ModelSection} {r : Value} (h : s.exportRecord = .ok r) :
    s.IsRecord r := by
  obtain ⟨fields, hfields, rfl⟩ := exportRecord_eq_ok.mp h
  exact ⟨fields, hfields.imp fun _ _ => FieldSection.isRecord_of_exportRecord, rfl⟩

theorem IsRecord.hasDocument {s : ModelSection} {r : Value} (h : s.IsRecord r) :
    r.HasDocument := by
  obtain ⟨fields, hfields, rfl⟩ := h
  have hlist : (Value.list .writable fields).HasDocument := by
    refine hasDocument_list_iff.mpr fun v hv => ?_
    obtain ⟨t, -, ht⟩ := exists_of_mem_right hfields hv
    exact ht.hasDocument
  refine hasDocument_map_iff.mpr ?_
  simp only [List.forall_mem_cons]
  exact ⟨hasDocument_text s.model.name, hlist, List.forall_mem_nil _⟩

end ModelSection

def IsDocumentRecord (title : Text) (sections : List ModelSection) (r : Value) : Prop :=
  ∃ models, List.Forall₂ ModelSection.IsRecord sections models ∧ r = documentRecord title models

theorem isDocumentRecord_of_exportRecord {title : Text} {sections : List ModelSection} {r : Value}
    (h : exportRecord title sections = .ok r) : IsDocumentRecord title sections r := by
  obtain ⟨models, hmodels, rfl⟩ := exportRecord_eq_ok.mp h
  exact ⟨models, hmodels.imp fun _ _ => ModelSection.isRecord_of_exportRecord, rfl⟩

theorem IsDocumentRecord.hasDocument {title : Text} {sections : List ModelSection} {r : Value}
    (h : IsDocumentRecord title sections r) : r.HasDocument := by
  obtain ⟨models, hmodels, rfl⟩ := h
  have hlist : (Value.list .writable models).HasDocument := by
    refine hasDocument_list_iff.mpr fun v hv => ?_
    obtain ⟨s, -, hs⟩ := exists_of_mem_right hmodels hv
    exact hs.hasDocument
  refine hasDocument_map_iff.mpr ?_
  simp only [List.forall_mem_cons]
  exact ⟨hasDocument_text title, hlist, List.forall_mem_nil _⟩

theorem exists_documentRecord {models : List Model} {sections : List ModelSection} (title : Text)
    (h : ModelSection.listOfModels models = .ok sections) :
    ∃ record data, exportRecord title sections = .ok record ∧ record.toJson? = .ok data ∧
      IsDocumentRecord title sections record := by
  obtain ⟨record, hrecord⟩ := exists_exportRecord title h
  have his := isDocumentRecord_of_exportRecord hrecord
  obtain ⟨data, hdata⟩ := his.hasDocument
  exact ⟨record, data, hrecord, hdata, his⟩

/-! ## Rendering -/

theorem Markdown.render_eq_error_iff {title : Text} {models : List Model} {fault : RenderFault} :
    render title models = .error fault ↔ ModelSection.listOfModels models = .error fault :=
  map_eq_error

theorem Html.exists_render {models : List Model} {sections : List ModelSection} (title : Text)
    (h : ModelSection.listOfModels models = .ok sections) :
    ∃ page, render title models = .ok page := by
  obtain ⟨record, data, hrecord, hdata, -⟩ := exists_documentRecord title h
  exact ⟨_, render_of_record h hrecord hdata⟩

theorem Html.render_eq_error_iff {title : Text} {models : List Model} {fault : RenderFault} :
    render title models = .error fault ↔ ModelSection.listOfModels models = .error fault := by
  constructor
  · intro h
    rcases bind_eq_error.mp h with hsections | ⟨sections, hsections, -⟩
    · exact hsections
    · obtain ⟨page, hpage⟩ := exists_render title hsections
      rw [h] at hpage
      cases hpage
  · intro h
    exact bind_eq_error.mpr (.inl h)

/-- The two renderings fail together.  For every title and all models, whatever their defaults are,
the page fails with a fault exactly if the Markdown does; and where the models have sections, the
embedded record can be made and has a JSON document, in which a default without one stands as its
literal. -/
theorem fault_render_iff (title : Text) (models : List Model) :
    (∀ fault, Html.render title models = .error fault ↔
      Markdown.render title models = .error fault) ∧
    ∀ sections, ModelSection.listOfModels models = .ok sections →
      ∃ record data, exportRecord title sections = .ok record ∧ record.toJson? = .ok data ∧
        IsDocumentRecord title sections record :=
  ⟨fun _ => Html.render_eq_error_iff.trans Markdown.render_eq_error_iff.symm,
    fun _ => exists_documentRecord title⟩

/-- A model whose default JSON cannot express, although it has a literal: a read-only map in a list
that may be changed, and a foreign object. -/
def mixedDefault : Model where
  name := "M"
  fields := [{
    name := "f", type := "T"
    default := .list .writable [.map .readOnly [("k", .int 1)], .foreign "now()"] }]

/-- A model whose default has no literal: a foreign object in a map. -/
def foreignDefault : Model where
  name := "N"
  fields := [{ name := "g", type := "T", default := .map .readOnly [("k", .foreign "now()")] }]

theorem fault_render_iff_mixed :
    (∃ sections, ModelSection.listOfModels [mixedDefault] = .ok sections ∧
      ∃ record data, exportRecord "D" sections = .ok record ∧ record.toJson? = .ok data ∧
        IsDocumentRecord "D" sections record) ∧
    Markdown.render "D" [mixedDefault, foreignDefault] = .error (.unwritable .foreignObject) ∧
    Html.render "D" [mixedDefault, foreignDefault] = .error (.unwritable .foreignObject) :=
  ⟨⟨_, rfl, (fault_render_iff "D" [mixedDefault]).2 _ rfl⟩, rfl,
    ((fault_render_iff "D" [mixedDefault, foreignDefault]).1 _).mpr rfl⟩

end SchemaDocs
