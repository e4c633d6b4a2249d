import SchemaDocs.Proofs.Agreement
import SchemaDocs.Proofs.CommandLine.ReportedRun
import SchemaDocs.Proofs.Loading
import SchemaDocs.Proofs.Schema.Unlocked
/-!
# Documents of read-only schemas

The documents of models do not tell a writable default from a read-only one: its literal is the
same, and in the embedded record it stands in its writable form.  So a raw schema and its read-only
copy have the same documents, or they are rejected for the same reason.

* `Html.render_map_unlocked`, `Markdown.render_map_unlocked`: documents of models with writable
  defaults;
* `DocumentPair.build_lock_ofJson`: the documents of a read-only copy.
-/

namespace SchemaDocs

open Results

/-! ## Sections -/

namespace Field

theorem defaultAttribute_unlocked (f : Field) :
    f.unlocked.defaultAttribute = f.defaultAttribute := by
  have hliteral := Value.literal_unlock f.default
  unfold defaultAttribute unlocked
  dsimp only
  generalize f.default = v at hliteral ⊢
  cases v with
  | list access items =>
      cases access with
      | writable => rfl
      | readOnly => exact congrArg (Except.map _) hliteral
  | map access entries => exact congrArg (Except.map _) hliteral
  | _ => rfl

theorem attributes_unlocked (f : Field) : f.unlocked.attributes = f.attributes := by
  unfold attributes
  rw [defaultAttribute_unlocked]
  rfl

end Field

namespace FieldSection

def unlocked (s : FieldSection) : FieldSection :=
  { s with field := s.field.unlocked }

theorem ofField_unlocked (model : Text) (f : Field) :
    ofField model f.unlocked = (ofField model f).map unlocked := by
  unfold ofField
  rw [f.attributes_unlocked, f.name_unlocked, f.type_unlocked]
  by_cases hblank : (f.name.isEmpty || f.type.isEmpty) = true
  · rw [if_pos hblank, if_pos hblank]
    rfl
  · rw [if_neg hblank, if_neg hblank]
    cases f.attributes <;> rfl

theorem exportRecord_unlocked (s : FieldSection) : s.unlocked.exportRecord = s.exportRecord := by
  unfold exportRecord
  have hdefault : s.unlocked.field.default.unlock = s.field.default.unlock :=
    Value.unlock_unlock s.field.default
  rw [hdefault]
  rfl

end FieldSection

namespace ModelSection

def unlocked (s : ModelSection) : ModelSection :=
  { s with model := s.model.unlocked, fields := s.fields.map FieldSection.unlocked }

theorem ofModel_unlocked (m : Model) : ofModel m.unlocked = (ofModel m).map unlocked := by
  unfold ofModel
  rw [m.name_unlocked, m.fields_unlocked]
  by_cases hblank : m.name.isEmpty = true
  · rw [if_pos hblank, if_pos hblank]
    rfl
  · rw [if_neg hblank, if_neg hblank, FieldSection.listOfFields_eq_mapM,
      FieldSection.listOfFields_eq_mapM, mapM_map_eq (FieldSection.ofField_unlocked m.name)]
    cases m.fields.mapM (FieldSection.ofField m.name) <;> rfl

theorem listOfModels_map_unlocked (models : List Model) :
    listOfModels (models.map Model.unlocked) = (listOfModels models).map (List.map unlocked) := by
  rw [listOfModels_eq_mapM, listOfModels_eq_mapM, mapM_map_eq ofModel_unlocked]

theorem exportRecord_unlocked (s : ModelSection) : s.unlocked.exportRecord = s.exportRecord := by
  have hfields : FieldSection.exportRecord ∘ FieldSection.unlocked = FieldSection.exportRecord :=
    funext FieldSection.exportRecord_unlocked
  unfold exportRecord
  dsimp only [unlocked]
  rw [FieldSection.exportRecords_eq_mapM, FieldSection.exportRecords_eq_mapM, List.mapM_map,
    hfields]
  rfl

end ModelSection

theorem exportRecord_map_unlocked (title : Text) (sections : List ModelSection) :
    exportRecord title (sections.map ModelSection.unlocked) = exportRecord title sections := by
  have hmodels : ModelSection.exportRecord ∘ ModelSection.unlocked = ModelSection.exportRecord :=
    funext ModelSection.exportRecord_unlocked
  unfold exportRecord
  rw [ModelSection.exportRecords_eq_mapM, ModelSection.exportRecords_eq_mapM, List.mapM_map,
    hmodels]

/-! ## Documents -/

namespace Html

theorem modelLinks_unlocked (s : ModelSection) : modelLinks s.unlocked = modelLinks s := by
  unfold modelLinks ModelSection.unlocked
  dsimp only
  rw [List.flatMap_map]
  rfl

theorem modelSection_unlocked (s : ModelSection) : modelSection s.unlocked = modelSection s := by
  unfold modelSection ModelSection.unlocked
  dsimp only
  rw [List.flatMap_map]
  rfl

theorem document_map_unlocked (title : Text) (sections : List ModelSection) :
    document title (sections.map ModelSection.unlocked) = document title sections := by
  unfold document page
  simp only [exportRecord_map_unlocked, List.flatMap_map, modelLinks_unlocked,
    modelSection_unlocked]

/-- The page shows a default and embeds it, and in both it does not count what may be changed. -/
theorem render_map_unlocked (title : Text) (models : List Model) :
    render title (models.map Model.unlocked) = render title models := by
  unfold render
  rw [ModelSection.listOfModels_map_unlocked]
  cases ModelSection.listOfModels models with
  | error fault => rfl
  | ok sections =>
      simp only [Except.map, bind, Except.bind]
      rw [document_map_unlocked]

end Html

namespace Markdown

theorem modelEntry_unlocked (s : ModelSection) : modelEntry s.unlocked = modelEntry s := by
  unfold modelEntry ModelSection.unlocked
  dsimp only
  rw [List.flatMap_map]
  rfl

theorem render_map_unlocked (title : Text) (models : List Model) :
    render title (models.map Model.unlocked) = render title models := by
  unfold render
  rw [ModelSection.listOfModels_map_unlocked]
  cases ModelSection.listOfModels models with
  | error fault => rfl
  | ok sections =>
      simp only [Except.map, document, List.flatMap_map, modelEntry_unlocked]

end Markdown

/-! ## Read-only copies -/

namespace DocumentPair

theorem build_of_models (title : Text) {raw : Value} {models : List Model}
    (h : Model.listOfValue raw = .ok models) (w : World) :
    build title raw w = Run.ofExcept .render (ofModels title models)
      { w with log := w.log ++ [Schema.countLine models] } :=
  Run.bind_of_ok (Schema.models_eq_ok_iff.mpr ⟨h, rfl⟩) _

theorem countLine_eq_of_unlocked {models others : List Model}
    (h : others.map Model.unlocked = models.map Model.unlocked) :
    Schema.countLine others = Schema.countLine models := by
  have hlength := congrArg List.length h
  rw [List.length_map, List.length_map] at hlength
  rw [Schema.countLine, Schema.countLine, hlength]

theorem agree_ofModels_of_unlocked (title : Text) {models others : List Model}
    (h : others.map Model.unlocked = models.map Model.unlocked) :
    Agree (fun d e => d.html = e.html ∧ d.markdown = e.markdown) (ofModels title models)
      (ofModels title others) := by
  have hhtml : Html.render title models = Html.render title others := by
    rw [← Html.render_map_unlocked title models, ← h, Html.render_map_unlocked]
  have hmarkdown : Markdown.render title models = Markdown.render title others := by
    rw [← Markdown.render_map_unlocked title models, ← h, Markdown.render_map_unlocked]
  unfold ofModels
  rw [hhtml, hmarkdown]
  cases Html.render title others with
  | error fault => exact .error fault
  | ok page =>
      cases Markdown.render title others with
      | error fault => exact .error fault
      | ok markdown => exact .ok ⟨rfl, rfl⟩

/-- The raw schema of a JSON document and its read-only copy have the same documents, or they are
rejected for the same reason.  These are the two cases of a document that is read from a text.  The
third one has a whole number with more digits than the reader takes and the writer gives: there is no
document of its value, and if it cannot be rendered, neither can its copy. -/
theorem build_lock_ofJson (title : Text) (document : Json) (w : World) :
    (∃ d e v, build title (.ofJson document) w = .ok d v ∧
      build title (Value.ofJson document).lock w = .ok e v ∧
      d.html = e.html ∧ d.markdown = e.markdown) ∨
    (∃ error, build title (.ofJson document) w = .error (.shape error) w ∧
      build title (Value.ofJson document).lock w = .error (.shape error) w) ∨
    (¬ (Value.ofJson document).HasDocument ∧ (∀ t, Json.read t ≠ .ok document) ∧
      ∃ fault v, build title (.ofJson document) w = .error (.render fault) v ∧
        build title (Value.ofJson document).lock w = .error (.render fault) v) := by
  have hread := Model.listOfValue_lock (Value.writable_ofJson document)
  cases hmodels : Model.listOfValue (.ofJson document) with
  | error error =>
      rw [hmodels] at hread
      have hother := map_eq_error.mp hread
      exact .inr (.inl ⟨error, build_of_shapeError title hmodels w,
        build_of_shapeError title hother w⟩)
  | ok models =>
      rw [hmodels] at hread
      obtain ⟨others, hothers, hsame⟩ := map_eq_ok.mp hread
      have hagree := agree_ofModels_of_unlocked title hsame
      rw [build_of_models title hmodels, build_of_models title hothers,
        countLine_eq_of_unlocked hsame]
      cases hd : ofModels title models with
      | ok d =>
          obtain ⟨e, he, hdocuments⟩ := hagree.exists_of_ok hd
          rw [he]
          exact .inl ⟨d, e, _, rfl, rfl, hdocuments⟩
      | error fault =>
          rw [hagree.eq_error hd]
          have hmissing : ¬ (Value.ofJson document).HasDocument := by
            intro hdocument
            obtain ⟨sections, hsections⟩ :=
              ModelSection.exists_listOfModels_of_hasDocument hdocument hmodels
            obtain ⟨d, hok⟩ := exists_ofModels title hsections
            rw [hd] at hok
            cases hok
          refine .inr (.inr ⟨hmissing, fun t ht => hmissing ?_, fault, _, rfl, rfl⟩)
          exact Value.hasDocument_ofJson _ (Json.tidy_of_read ht)

end DocumentPair

end SchemaDocs
