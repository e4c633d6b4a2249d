import SchemaDocs.Document.Sections
import SchemaDocs.Proofs.Results
/-!
# What sections hold

A section shows its field or model exactly if it was made from it, and models have sections exactly
if each of them has one.

* `FieldSection.ofField_eq_ok`, `ModelSection.ofModel_eq_ok`: what a section shows;
* `Field.forall_mem_attributes`: what holds of every attribute of a field.
-/

namespace SchemaDocs

open Results

/-! ## Attributes -/

namespace Field

theorem exists_defaultAttribute_iff {f : Field} :
    (∃ attributes, f.defaultAttribute = .ok attributes) ↔ ∃ l, f.default.literal = .ok l := by
  unfold defaultAttribute
  split
  · next hnull => exact iff_of_true ⟨[], rfl⟩ ⟨"None", by rw [hnull]; rfl⟩
  · simp only [map_eq_ok]
    constructor
    · rintro ⟨_, l, hl, -⟩
      exact ⟨l, hl⟩
    · rintro ⟨l, hl⟩
      exact ⟨_, l, hl, rfl⟩

theorem exists_attributes_iff {f : Field} :
    (∃ attributes, f.attributes = .ok attributes) ↔ ∃ l, f.default.literal = .ok l := by
  rw [← exists_defaultAttribute_iff]
  simp only [attributes, map_eq_ok]
  constructor
  · rintro ⟨_, default, hdefault, -⟩
    exact ⟨default, hdefault⟩
  · rintro ⟨default, hdefault⟩
    exact ⟨_, default, hdefault, rfl⟩

theorem forall_mem_attributes {P : Attribute → Prop} {f : Field} {attributes : List Attribute}
    (h : f.attributes = .ok attributes) (hfixed : ∀ s : String, P { text := s })
    (hliteral : ∀ l, f.default.literal = .ok l → P { text := "@default(" ++ l ++ ")" })
    (hrelation : ∀ r ∈ f.relation, P { text := r, target := some f.type }) :
    ∀ a ∈ attributes, P a := by
  obtain ⟨default, hdefault, rfl⟩ := map_eq_ok.mp h
  have hflag : ∀ (b : Bool) (s : String),
      ∀ a ∈ (if b then [({ text := s } : Attribute)] else []), P a := by
    intro b s
    cases b with
    | false => exact List.forall_mem_nil _
    | true => exact List.forall_mem_singleton.mpr (hfixed s)
  have hdefault : ∀ a ∈ default, P a := by
    unfold defaultAttribute at hdefault
    split at hdefault
    · cases hdefault
      exact List.forall_mem_nil _
    · obtain ⟨l, hl, rfl⟩ := map_eq_ok.mp hdefault
      exact List.forall_mem_singleton.mpr (hliteral l hl)
  have hrelation : ∀ a ∈ f.relationAttribute, P a := by
    unfold relationAttribute
    split
    · exact List.forall_mem_nil _
    · next r hr =>
        split
        · exact List.forall_mem_nil _
        · exact List.forall_mem_singleton.mpr (hrelation r hr)
  simp only [List.forall_mem_append]
  exact ⟨⟨⟨⟨hflag _ _, hflag _ _⟩, hdefault⟩, hflag _ _⟩, hrelation⟩

end Field

/-! ## Sections -/

namespace FieldSection

structure Shows (model : Text) (f : Field) (s : FieldSection) : Prop where
  name_ne_nil : f.name ≠ []
  type_ne_nil : f.type ≠ []
  field : s.field = f
  anchor : s.anchor = model ++ "-" ++ f.name
  description : s.description = f.description model
  attributes : f.attributes = .ok s.attributes

theorem ofField_eq_ok {model : Text} {f : Field} {s : FieldSection} :
    ofField model f = .ok s ↔ Shows model f s := by
  unfold ofField
  by_cases hblank : (f.name.isEmpty || f.type.isEmpty) = true
  · rw [if_pos hblank]
    constructor
    · intro h
      cases h
    · intro h
      simp [h.name_ne_nil, h.type_ne_nil] at hblank
  · rw [if_neg hblank]
    simp only [Bool.or_eq_true, List.isEmpty_iff, not_or] at hblank
    constructor
    · intro h
      cases hattributes : f.attributes with
      | error cause =>
          rw [hattributes] at h
          cases h
      | ok attributes =>
          rw [hattributes] at h
          cases h
          exact ⟨hblank.1, hblank.2, rfl, rfl, rfl, hattributes⟩
    · intro h
      rw [h.attributes, ← h.anchor, ← h.description, ← h.field]

theorem listOfFields_eq_mapM (model : Text) (fields : List Field) :
    listOfFields model fields = fields.mapM (ofField model) := by
  induction fields with
  | nil => rfl
  | cons f rest ih => rw [listOfFields, List.mapM_cons, ih]

theorem listOfFields_eq_ok {model : Text} {fields : List Field} {sections : List FieldSection} :
    listOfFields model fields = .ok sections ↔ List.Forall₂ (Shows model) fields sections := by
  rw [listOfFields_eq_mapM, mapM_eq_ok]
  simp only [ofField_eq_ok]

theorem map_field {model : Text} {fields : List Field} {sections : List FieldSection}
    (h : List.Forall₂ (Shows model) fields sections) :
    sections.map FieldSection.field = fields := by
  induction h with
  | nil => rfl
  | cons hfield _ ih => rw [List.map_cons, hfield.field, ih]

theorem map_anchor {model : Text} {fields : List Field} {sections : List FieldSection}
    (h : List.Forall₂ (Shows model) fields sections) :
    sections.map FieldSection.anchor = fields.map fun f => model ++ "-" ++ f.name := by
  induction h with
  | nil => rfl
  | cons hfield _ ih => rw [List.map_cons, hfield.anchor, ih, List.map_cons]

end FieldSection

namespace ModelSection

structure Shows (m : Model) (s : ModelSection) : Prop where
  name_ne_nil : m.name ≠ []
  model : s.model = m
  anchor : s.anchor = m.name
  fields : List.Forall₂ (FieldSection.Shows m.name) m.fields s.fields

theorem ofModel_eq_ok {m : Model} {s : ModelSection} : ofModel m = .ok s ↔ Shows m s := by
  unfold ofModel
  by_cases hname : m.name.isEmpty = true
  · rw [if_pos hname]
    constructor
    · intro h
      cases h
    · intro h
      exact absurd (List.isEmpty_iff.mp hname) h.name_ne_nil
  · rw [if_neg hname, map_eq_ok]
    rw [List.isEmpty_iff] at hname
    constructor
    · rintro ⟨fields, hfields, rfl⟩
      exact ⟨hname, rfl, rfl, FieldSection.listOfFields_eq_ok.mp hfields⟩
    · intro h
      refine ⟨s.fields, FieldSection.listOfFields_eq_ok.mpr h.fields, ?_⟩
      rw [← h.anchor, ← h.model]

theorem listOfModels_eq_mapM (models : List Model) : listOfModels models = models.mapM ofModel := by
  induction models with
  | nil => rfl
  | cons m rest ih => rw [listOfModels, List.mapM_cons, ih]

theorem listOfModels_eq_ok {models : List Model} {sections : List ModelSection} :
    listOfModels models = .ok sections ↔ List.Forall₂ Shows models sections := by
  rw [listOfModels_eq_mapM, mapM_eq_ok]
  simp only [ofModel_eq_ok]

theorem map_field_flatMap {models : List Model} {sections : List ModelSection}
    (h : listOfModels models = .ok sections) :
    (sections.flatMap ModelSection.fields).map FieldSection.field =
      models.flatMap Model.fields := by
  rw [listOfModels_eq_ok] at h
  induction h with
  | nil => rfl
  | cons hmodel _ ih =>
      rw [List.flatMap_cons, List.map_append, FieldSection.map_field hmodel.fields, ih,
        List.flatMap_cons]

theorem length_eq {models : List Model} {sections : List ModelSection}
    (h : listOfModels models = .ok sections) : sections.length = models.length :=
  (listOfModels_eq_ok.mp h).length_eq.symm

theorem exists_shows_of_mem {models : List Model} {sections : List ModelSection}
    (h : listOfModels models = .ok sections) {s : FieldSection}
    (hs : s ∈ sections.flatMap ModelSection.fields) :
    ∃ m ∈ models, ∃ f ∈ m.fields, FieldSection.Shows m.name f s := by
  obtain ⟨t, ht, hs⟩ := List.mem_flatMap.mp hs
  obtain ⟨m, hm, hshows⟩ := exists_of_mem_right (listOfModels_eq_ok.mp h) ht
  obtain ⟨f, hf, hfield⟩ := exists_of_mem_right hshows.fields hs
  exact ⟨m, hm, f, hf, hfield⟩

theorem exists_listOfModels {models : List Model}
    (h : ∀ m ∈ models, m.name ≠ [] ∧ ∀ f ∈ m.fields,
      f.name ≠ [] ∧ f.type ≠ [] ∧ ∃ attributes, f.attributes = .ok attributes) :
    ∃ sections, listOfModels models = .ok sections := by
  rw [listOfModels_eq_mapM]
  apply exists_mapM_eq_ok
  intro m hm
  obtain ⟨hname, hfields⟩ := h m hm
  have hsections : ∃ sections, FieldSection.listOfFields m.name m.fields = .ok sections := by
    rw [FieldSection.listOfFields_eq_mapM]
    apply exists_mapM_eq_ok
    intro f hf
    obtain ⟨hfname, hftype, attributes, hattributes⟩ := hfields f hf
    exact ⟨⟨f, m.name ++ "-" ++ f.name, f.description m.name, attributes⟩,
      FieldSection.ofField_eq_ok.mpr ⟨hfname, hftype, rfl, rfl, rfl, hattributes⟩⟩
  obtain ⟨sections, hsections⟩ := hsections
  exact ⟨⟨m, m.name, sections⟩,
    ofModel_eq_ok.mpr ⟨hname, rfl, rfl, FieldSection.listOfFields_eq_ok.mp hsections⟩⟩

end ModelSection

end SchemaDocs
