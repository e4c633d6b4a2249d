import SchemaDocs.Proofs.Document.ExportRecord
import SchemaDocs.Proofs.Schema.Plain
import SchemaDocs.Proofs.Value.Literal
/-!
# Sections of plain models

Plain models always have sections and a record, and the record is plain again: every default stands
in it as it is, since JSON can express it.

* `exists_listOfModels_of_plain`: plain models have sections;
* `exportRecord_of_plain`: the record holds every default as its writable form;
* `plain_documentRecord`: that record is plain.
-/

namespace SchemaDocs

open Results
open Text (PairFree)

structure Attribute.Plain (a : Attribute) : Prop where
  text : PairFree a.text
  target : ∀ t ∈ a.target, PairFree t

theorem Attribute.plain_ofString (s : String) : Attribute.Plain { text := s } :=
  ⟨(Text.surrogateFree_ofString s).pairFree, fun _ ht => nomatch ht⟩

/-! ## Sections -/

namespace Field

theorem exists_attributes {f : Field} (hf : f.Plain) :
    ∃ as, f.attributes = .ok as ∧ ∀ a ∈ as, a.Plain := by
  obtain ⟨l, hl, hpair⟩ := Value.exists_literal _ hf.default
  rw [Value.literal_unlock] at hl
  obtain ⟨attributes, hattributes⟩ := exists_attributes_iff.mpr ⟨l, hl⟩
  refine ⟨attributes, hattributes, forall_mem_attributes hattributes Attribute.plain_ofString ?_ ?_⟩
  · intro l' hl'
    rw [hl] at hl'
    cases hl'
    have htext : PairFree ("@default(" ++ l ++ ")") :=
      ((Text.surrogateFree_ofString "@default(").append_pairFree hpair).append_surrogateFree
        (Text.surrogateFree_ofString ")")
    exact ⟨htext, fun _ ht => nomatch ht⟩
  · intro r hr
    refine ⟨hf.relation r hr, fun t ht => ?_⟩
    rw [← Option.some.inj ht]
    exact hf.type

theorem pairFree_description {model : Text} (hmodel : PairFree model) {f : Field} (hf : f.Plain) :
    PairFree (f.description model) := by
  have hend := hmodel.append_surrogateFree (Text.surrogateFree_ofString " model.")
  have hmiddle := hf.name.append_between (Text.surrogateFree_ofString " field of the ")
    (by decide) hend
  have hwhole := (Text.surrogateFree_ofString "The ").append_pairFree hmiddle
  rw [description]
  simpa only [List.append_assoc] using hwhole

end Field

theorem exists_listOfModels_of_plain {models : List Model} (h : ∀ m ∈ models, m.Plain) :
    ∃ sections, ModelSection.listOfModels models = .ok sections := by
  refine ModelSection.exists_listOfModels fun m hm => ⟨(h m hm).name_ne_nil, fun f hf => ?_⟩
  have hplain := (h m hm).fields f hf
  obtain ⟨attributes, hattributes, -⟩ := Field.exists_attributes hplain
  exact ⟨hplain.name_ne_nil, hplain.type_ne_nil, attributes, hattributes⟩

/-! ## Records -/

theorem Value.plain_map {entries : List (Text × Value)} (names : List String)
    (hnames : entries.map Prod.fst = names.map Text.ofString) (hnodup : names.Nodup)
    (hvalues : ∀ e ∈ entries, e.2.Plain) : (Value.map .writable entries).Plain := by
  refine ⟨rfl, ?_, plainEntries_iff.mpr fun e he => ⟨?_, hvalues e he⟩⟩
  · rw [hnames]
    exact hnodup.map fun _ _ h => Text.ofString_inj.mp h
  · have hkey : e.1 ∈ names.map Text.ofString := hnames ▸ List.mem_map_of_mem he
    obtain ⟨s, -, hs⟩ := List.mem_map.mp hkey
    rw [← hs]
    exact (Text.surrogateFree_ofString s).pairFree

theorem Value.plain_list {items : List Value} (h : ∀ v ∈ items, v.Plain) :
    (Value.list .writable items).Plain := ⟨rfl, plainItems_iff.mpr h⟩

theorem Value.plain_option {t : Option Text} (h : ∀ s ∈ t, PairFree s) :
    (t.elim Value.null Value.text).Plain := by
  cases t with
  | none => trivial
  | some s => exact h s rfl

theorem Attribute.plain_toValue {a : Attribute} (ha : a.Plain) : a.toValue.Plain := by
  refine Value.plain_map ["text", "target"] rfl (by decide) ?_
  simp only [List.forall_mem_cons]
  exact ⟨ha.text, Value.plain_option ha.target, fun e he => absurd he List.not_mem_nil⟩

namespace FieldSection

theorem plain_record {model : Text} {f : Field} {s : FieldSection} (hmodel : PairFree model)
    (hf : f.Plain) (hs : Shows model f s) : (s.record s.field.default.unlock).Plain := by
  obtain ⟨attributes, hattributes, hplain⟩ := Field.exists_attributes hf
  have hsame : s.attributes = attributes := by
    have h := hs.attributes
    rw [hattributes] at h
    exact (Except.ok.inj h).symm
  have hshown : ∀ v ∈ s.attributes.map Attribute.toValue, v.Plain := by
    intro v hv
    obtain ⟨a, ha, rfl⟩ := List.mem_map.mp hv
    exact Attribute.plain_toValue (hplain a (hsame ▸ ha))
  have hdescription : PairFree s.description := by
    rw [hs.description]
    exact Field.pairFree_description hmodel hf
  refine Value.plain_map ["name", "type", "isRequired", "isUnique", "isId", "default", "updatedAt",
    "relation", "description", "attributes"] rfl (by decide) ?_
  rw [hs.field]
  simp only [Field.recordEntries, shownEntries, List.forall_mem_append, List.forall_mem_cons]
  exact ⟨⟨hf.name, hf.type, trivial, trivial, trivial, hf.default, trivial,
    Value.plain_option hf.relation, fun e he => absurd he List.not_mem_nil⟩,
    hdescription, Value.plain_list hshown, fun e he => absurd he List.not_mem_nil⟩

theorem exportRecord_of_plain {s : FieldSection} (h : s.field.default.unlock.Plain) :
    s.exportRecord = .ok (s.record s.field.default.unlock) := by
  obtain ⟨j, hj, -⟩ := Value.exists_toJson? _ h
  refine exportRecord_eq_ok.mpr ⟨_, ?_, rfl⟩
  rw [Value.embeddable, hj]

end FieldSection

namespace ModelSection

/-- The record of a model in which every default stands as it is. -/
def fullRecord (s : ModelSection) : Value :=
  s.record (s.fields.map fun t => t.record t.field.default.unlock)

theorem plain_fields {m : Model} {s : ModelSection} (hm : m.Plain) (hs : Shows m s) :
    ∀ t ∈ s.fields, ∃ f, f.Plain ∧ FieldSection.Shows m.name f t := by
  intro t ht
  obtain ⟨f, hf, hshows⟩ := exists_of_mem_right hs.fields ht
  exact ⟨f, hm.fields f hf, hshows⟩

theorem plain_fullRecord {m : Model} {s : ModelSection} (hm : m.Plain) (hs : Shows m s) :
    s.fullRecord.Plain := by
  have hfields : ∀ v ∈ s.fields.map (fun t => t.record t.field.default.unlock), v.Plain := by
    intro v hv
    obtain ⟨t, ht, rfl⟩ := List.mem_map.mp hv
    obtain ⟨f, hf, hshows⟩ := plain_fields hm hs t ht
    exact FieldSection.plain_record hm.name hf hshows
  refine Value.plain_map ["name", "fields"] rfl (by decide) ?_
  simp only [List.forall_mem_cons]
  rw [hs.model]
  exact ⟨hm.name, Value.plain_list hfields, fun e he => absurd he List.not_mem_nil⟩

theorem exportRecord_of_plain {m : Model} {s : ModelSection} (hm : m.Plain) (hs : Shows m s) :
    s.exportRecord = .ok s.fullRecord := by
  refine exportRecord_eq_ok.mpr ⟨_, ?_, rfl⟩
  rw [List.forall₂_map_right_iff, List.forall₂_same]
  intro t ht
  obtain ⟨f, hf, hshows⟩ := plain_fields hm hs t ht
  refine FieldSection.exportRecord_of_plain ?_
  rw [hshows.field]
  exact hf.default

end ModelSection

theorem exportRecord_of_plain (title : Text) {models : List Model} {sections : List ModelSection}
    (hmodels : ∀ m ∈ models, m.Plain) (h : ModelSection.listOfModels models = .ok sections) :
    exportRecord title sections =
      .ok (documentRecord title (sections.map ModelSection.fullRecord)) := by
  rw [ModelSection.listOfModels_eq_ok] at h
  refine exportRecord_eq_ok.mpr ⟨_, ?_, rfl⟩
  rw [List.forall₂_map_right_iff, List.forall₂_same]
  intro s hs
  obtain ⟨m, hm, hshows⟩ := exists_of_mem_right h hs
  exact ModelSection.exportRecord_of_plain (hmodels m hm) hshows

theorem plain_documentRecord {title : Text} {models : List Model} {sections : List ModelSection}
    (htitle : PairFree title) (hmodels : ∀ m ∈ models, m.Plain)
    (h : ModelSection.listOfModels models = .ok sections) :
    (documentRecord title (sections.map ModelSection.fullRecord)).Plain := by
  rw [ModelSection.listOfModels_eq_ok] at h
  have hrecords : ∀ v ∈ sections.map ModelSection.fullRecord, v.Plain := by
    intro v hv
    obtain ⟨s, hs, rfl⟩ := List.mem_map.mp hv
    obtain ⟨m, hm, hshows⟩ := exists_of_mem_right h hs
    exact ModelSection.plain_fullRecord (hmodels m hm) hshows
  refine Value.plain_map ["title", "models"] rfl (by decide) ?_
  simp only [List.forall_mem_cons]
  exact ⟨htitle, Value.plain_list hrecords, fun e he => absurd he List.not_mem_nil⟩

end SchemaDocs
