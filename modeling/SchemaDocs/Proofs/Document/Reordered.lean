import SchemaDocs.DocumentPair
import SchemaDocs.Proofs.Document.ExportRecord
import SchemaDocs.Proofs.Document.Sections
import SchemaDocs.Proofs.Schema.SameContent
/-!
# Documents of reordered models

Models that only differ in the order of entries in their defaults are rendered alike: the attributes
show the literal of a default, and the record in the page is printed with sorted keys.

* `ModelSection.agree_listOfModels`: the sections of such models;
* `DocumentPair.agree_ofModels`: their documents.
-/

namespace SchemaDocs

open Results (Agree agree_mapM agree_of_eq)

namespace Value

theorem ReorderedEntries.refl (entries : List (Text × Value)) :
    ReorderedEntries entries entries := by
  induction entries with
  | nil => exact .nil
  | cons e rest ih => exact .cons (.same e.2) ih

theorem ReorderedEntries.append_right (more : List (Text × Value))
    {entries others : List (Text × Value)} (h : ReorderedEntries entries others) :
    ReorderedEntries (entries ++ more) (others ++ more) := by
  induction entries generalizing others with
  | nil =>
      cases h
      exact .refl more
  | cons e rest ih =>
      cases h with
      | cons hfirst hrest => exact .cons hfirst (ih hrest)

theorem ReorderedEntries.map {entries others : List (Text × Value)}
    (h : ReorderedEntries entries others) (hkeys : (entries.map Prod.fst).Nodup)
    (access : Access) : Reordered (.map access entries) (.map access others) :=
  .map hkeys h (.refl others)

end Value

/-! ## Sections -/

namespace Field

theorem Reordered.defaultAttribute_eq {f g : Field} (h : Reordered f g) :
    f.defaultAttribute = g.defaultAttribute := by
  have hdefault := h.default
  have hliteral := hdefault.literal_eq
  unfold defaultAttribute
  generalize f.default = v at hdefault hliteral ⊢
  generalize g.default = w at hdefault hliteral ⊢
  cases hdefault with
  | same => rfl
  | list => exact congrArg (Except.map _) hliteral
  | map => exact congrArg (Except.map _) hliteral

theorem Reordered.recordEntries {f g : Field} (h : Reordered f g) {v w : Value}
    (hvw : Value.Reordered v w) :
    Value.ReorderedEntries (f.recordEntries v) (g.recordEntries w) := by
  unfold Field.recordEntries
  rw [h.name, h.type, h.isRequired, h.isUnique, h.isId, h.updatedAt, h.relation]
  exact .cons (.same _) (.cons (.same _) (.cons (.same _) (.cons (.same _) (.cons (.same _)
    (.cons hvw (.refl _))))))

theorem Reordered.attributes_eq {f g : Field} (h : Reordered f g) :
    f.attributes = g.attributes := by
  rw [attributes, attributes, h.defaultAttribute_eq, h.isId, h.isUnique, h.updatedAt,
    relationAttribute, relationAttribute, h.relation, h.type]

end Field

namespace FieldSection

structure Reordered (s t : FieldSection) : Prop where
  field : Field.Reordered s.field t.field
  anchor : s.anchor = t.anchor
  description : s.description = t.description
  attributes : s.attributes = t.attributes

theorem agree_ofField (model : Text) {f g : Field} (h : Field.Reordered f g) :
    Agree Reordered (ofField model f) (ofField model g) := by
  unfold ofField
  rw [h.name, h.type, h.attributes_eq]
  by_cases hblank : (g.name.isEmpty || g.type.isEmpty) = true
  · rw [if_pos hblank, if_pos hblank]
    exact .error _
  · rw [if_neg hblank, if_neg hblank]
    cases g.attributes with
    | error cause => exact .error _
    | ok attributes =>
        refine .ok ⟨h, rfl, ?_, rfl⟩
        simp only [Field.description, h.name]

theorem agree_listOfFields (model : Text) {fields others : List Field}
    (h : List.Forall₂ Field.Reordered fields others) :
    Agree (List.Forall₂ Reordered) (listOfFields model fields) (listOfFields model others) := by
  rw [listOfFields_eq_mapM, listOfFields_eq_mapM]
  exact agree_mapM (h.imp fun _ _ => agree_ofField model)

theorem Reordered.agree_exportRecord {s t : FieldSection} (h : Reordered s t) :
    Agree Value.Reordered s.exportRecord t.exportRecord := by
  unfold exportRecord
  rw [show s.shownEntries = t.shownEntries by
    rw [shownEntries, shownEntries, h.description, h.attributes]]
  refine h.field.default.unlock.agree_embeddable.map fun v w hvw => ?_
  refine ((h.field.recordEntries hvw).append_right t.shownEntries).map ?_ .writable
  show (["name", "type", "isRequired", "isUnique", "isId", "default", "updatedAt", "relation",
    "description", "attributes"] : List Text).Nodup
  decide

end FieldSection

namespace ModelSection

structure Reordered (s t : ModelSection) : Prop where
  name : s.model.name = t.model.name
  anchor : s.anchor = t.anchor
  fields : List.Forall₂ FieldSection.Reordered s.fields t.fields

theorem agree_ofModel {m n : Model} (h : Model.Reordered m n) :
    Agree Reordered (ofModel m) (ofModel n) := by
  unfold ofModel
  rw [h.name]
  by_cases hblank : n.name.isEmpty = true
  · rw [if_pos hblank, if_pos hblank]
    exact .error _
  · rw [if_neg hblank, if_neg hblank]
    exact (FieldSection.agree_listOfFields n.name h.fields).map fun _ _ hs => ⟨h.name, rfl, hs⟩

theorem agree_listOfModels {models others : List Model}
    (h : List.Forall₂ Model.Reordered models others) :
    Agree (List.Forall₂ Reordered) (listOfModels models) (listOfModels others) := by
  rw [listOfModels_eq_mapM, listOfModels_eq_mapM]
  exact agree_mapM (h.imp fun _ _ => agree_ofModel)

theorem Reordered.agree_exportRecord {s t : ModelSection} (h : Reordered s t) :
    Agree Value.Reordered s.exportRecord t.exportRecord := by
  unfold exportRecord
  rw [FieldSection.exportRecords_eq_mapM, FieldSection.exportRecords_eq_mapM, h.name]
  have hfields := agree_mapM (h.fields.imp fun _ _ => FieldSection.Reordered.agree_exportRecord)
  refine hfields.map fun vs ws hs => Value.ReorderedEntries.map ?_ ?_ .writable
  · exact .cons (.same _) (.cons (.list (Value.reorderedItems_iff.mpr hs)) .nil)
  · show (["name", "fields"] : List Text).Nodup
    decide

end ModelSection

theorem agree_exportRecord (title : Text) {sections others : List ModelSection}
    (h : List.Forall₂ ModelSection.Reordered sections others) :
    Agree Value.Reordered (exportRecord title sections) (exportRecord title others) := by
  unfold exportRecord
  rw [ModelSection.exportRecords_eq_mapM, ModelSection.exportRecords_eq_mapM]
  have hmodels := agree_mapM (h.imp fun _ _ => ModelSection.Reordered.agree_exportRecord)
  refine hmodels.map fun vs ws hs => Value.ReorderedEntries.map ?_ ?_ .writable
  · exact .cons (.same _) (.cons (.list (Value.reorderedItems_iff.mpr hs)) .nil)
  · show (["title", "models"] : List Text).Nodup
    decide

/-! ## Documents -/

namespace Html

open Results (flatMap_eq_of_forall₂)

theorem fieldLink_eq {s t : FieldSection} (h : FieldSection.Reordered s t) :
    fieldLink s = fieldLink t := by
  rw [fieldLink, fieldLink, h.anchor, h.field.name]

theorem modelLinks_eq {s t : ModelSection} (h : ModelSection.Reordered s t) :
    modelLinks s = modelLinks t := by
  rw [modelLinks, modelLinks, h.anchor, h.name,
    flatMap_eq_of_forall₂ h.fields fun _ _ => fieldLink_eq]

theorem fieldSection_eq {s t : FieldSection} (h : FieldSection.Reordered s t) :
    fieldSection s = fieldSection t := by
  rw [fieldSection, fieldSection, FieldSection.requiredText, FieldSection.requiredText, h.anchor,
    h.description, h.attributes, h.field.name, h.field.type, h.field.isRequired]

theorem modelSection_eq {s t : ModelSection} (h : ModelSection.Reordered s t) :
    modelSection s = modelSection t := by
  rw [modelSection, modelSection, h.anchor, h.name,
    flatMap_eq_of_forall₂ h.fields fun _ _ => fieldSection_eq]

theorem document_eq (title : Text) {sections others : List ModelSection}
    (h : List.Forall₂ ModelSection.Reordered sections others) :
    document title sections = document title others := by
  have hpage : ∀ data, page title sections data = page title others data := by
    intro data
    rw [page, page, flatMap_eq_of_forall₂ h fun _ _ => modelLinks_eq,
      flatMap_eq_of_forall₂ h fun _ _ => modelSection_eq]
  unfold document
  refine ((agree_exportRecord title h).bind fun record other hrecord => ?_).eq
  rw [hrecord.toJson?_eq]
  refine agree_of_eq ?_
  simp only [hpage]

theorem render_eq (title : Text) {models others : List Model}
    (h : List.Forall₂ Model.Reordered models others) : render title models = render title others := by
  unfold render
  refine ((ModelSection.agree_listOfModels h).bind fun sections others hsections => ?_).eq
  rw [document_eq title hsections]
  exact agree_of_eq rfl

end Html

namespace Markdown

open Results (flatMap_eq_of_forall₂)

theorem fieldEntry_eq {s t : FieldSection} (h : FieldSection.Reordered s t) :
    fieldEntry s = fieldEntry t := by
  rw [fieldEntry, fieldEntry, fieldTable, fieldTable, FieldSection.requiredText,
    FieldSection.requiredText, FieldSection.attributeLine, FieldSection.attributeLine,
    h.description, h.attributes, h.field.name, h.field.type, h.field.isRequired]

theorem modelEntry_eq {s t : ModelSection} (h : ModelSection.Reordered s t) :
    modelEntry s = modelEntry t := by
  rw [modelEntry, modelEntry, h.name, flatMap_eq_of_forall₂ h.fields fun _ _ => fieldEntry_eq]

theorem render_eq (title : Text) {models others : List Model}
    (h : List.Forall₂ Model.Reordered models others) : render title models = render title others := by
  refine ((ModelSection.agree_listOfModels h).map fun sections others hsections => ?_).eq
  rw [document, document, flatMap_eq_of_forall₂ hsections fun _ _ => modelEntry_eq]

end Markdown

theorem DocumentPair.agree_ofModels (title : Text) {models others : List Model}
    (h : List.Forall₂ Model.Reordered models others) :
    Agree (fun d e => d.html = e.html ∧ d.markdown = e.markdown) (ofModels title models)
      (ofModels title others) := by
  unfold ofModels
  rw [Html.render_eq title h, Markdown.render_eq title h]
  cases Html.render title others with
  | error fault => exact .error fault
  | ok page =>
      cases Markdown.render title others with
      | error fault => exact .error fault
      | ok markdown => exact .ok ⟨rfl, rfl⟩

end SchemaDocs
