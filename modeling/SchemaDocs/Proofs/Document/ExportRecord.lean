import SchemaDocs.Proofs.Document.Sections
import SchemaDocs.Proofs.Value.Access
/-!
# The embedded record

The record of a document, taken apart into the records of its models and fields.  Sections that show
models always have a record: the default of every field has a literal there, and so it can be
embedded.
-/

namespace SchemaDocs

open Results

namespace FieldSection

def record (s : FieldSection) (default : Value) : Value :=
  .map .writable (s.field.recordEntries default ++ s.shownEntries)

theorem exportRecord_eq_ok {s : FieldSection} {r : Value} :
    s.exportRecord = .ok r ↔
      ∃ default, s.field.default.unlock.embeddable = .ok default ∧ s.record default = r :=
  map_eq_ok

theorem exportRecords_eq_mapM (sections : List FieldSection) :
    exportRecords sections = sections.mapM exportRecord := by
  induction sections with
  | nil => rfl
  | cons s rest ih => rw [exportRecords, List.mapM_cons, ih]

theorem exists_exportRecord {model : Text} {f : Field} {s : FieldSection} (h : Shows model f s) :
    ∃ r, s.exportRecord = .ok r := by
  have hliteral : ∃ l, s.field.default.literal = .ok l := by
    rw [h.field]
    exact Field.exists_attributes_iff.mp ⟨_, h.attributes⟩
  obtain ⟨l, hl⟩ := hliteral
  obtain ⟨default, hdefault⟩ := Value.exists_embeddable_unlock hl
  exact ⟨s.record default, exportRecord_eq_ok.mpr ⟨default, hdefault, rfl⟩⟩

end FieldSection

namespace ModelSection

def record (s : ModelSection) (fields : List Value) : Value :=
  .map .writable [("name", .text s.model.name), ("fields", .list .writable fields)]

theorem exportRecord_eq_ok {s : ModelSection} {r : Value} :
    s.exportRecord = .ok r ↔
      ∃ fields, List.Forall₂ (fun t v => t.exportRecord = .ok v) s.fields fields ∧
        s.record fields = r := by
  rw [exportRecord, map_eq_ok]
  simp only [FieldSection.exportRecords_eq_mapM, mapM_eq_ok, record]

theorem exportRecords_eq_mapM (sections : List ModelSection) :
    exportRecords sections = sections.mapM exportRecord := by
  induction sections with
  | nil => rfl
  | cons s rest ih => rw [exportRecords, List.mapM_cons, ih]

theorem exists_exportRecord {m : Model} {s : ModelSection} (h : Shows m s) :
    ∃ r, s.exportRecord = .ok r := by
  have hfields : ∀ t ∈ s.fields, ∃ v, t.exportRecord = .ok v := by
    intro t ht
    obtain ⟨f, -, hf⟩ := exists_of_mem_right h.fields ht
    exact FieldSection.exists_exportRecord hf
  obtain ⟨fields, hfields⟩ := exists_mapM_eq_ok hfields
  exact ⟨s.record fields, exportRecord_eq_ok.mpr ⟨fields, mapM_eq_ok.mp hfields, rfl⟩⟩

end ModelSection

def documentRecord (title : Text) (models : List Value) : Value :=
  .map .writable [("title", .text title), ("models", .list .writable models)]

theorem exportRecord_eq_ok {title : Text} {sections : List ModelSection} {r : Value} :
    exportRecord title sections = .ok r ↔
      ∃ models, List.Forall₂ (fun s v => s.exportRecord = .ok v) sections models ∧
        documentRecord title models = r := by
  rw [exportRecord, map_eq_ok]
  simp only [ModelSection.exportRecords_eq_mapM, mapM_eq_ok, documentRecord]

theorem exists_exportRecord {models : List Model} {sections : List ModelSection} (title : Text)
    (h : ModelSection.listOfModels models = .ok sections) :
    ∃ r, exportRecord title sections = .ok r := by
  rw [ModelSection.listOfModels_eq_ok] at h
  have hmodels : ∀ s ∈ sections, ∃ v, s.exportRecord = .ok v := by
    intro s hs
    obtain ⟨m, -, hm⟩ := exists_of_mem_right h hs
    exact ModelSection.exists_exportRecord hm
  obtain ⟨records, hrecords⟩ := exists_mapM_eq_ok hmodels
  exact ⟨documentRecord title records,
    exportRecord_eq_ok.mpr ⟨records, mapM_eq_ok.mp hrecords, rfl⟩⟩

end SchemaDocs
