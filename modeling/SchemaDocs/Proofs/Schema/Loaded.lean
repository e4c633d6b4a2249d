import SchemaDocs.Proofs.DocumentPair
import SchemaDocs.Proofs.Document.Rendering
import SchemaDocs.Proofs.Json.Tidy
import SchemaDocs.Proofs.Schema.Model
/-!
# Schemas that were loaded

What is loaded from a schema file has a JSON document, since it was one, and so has every part of
it.  Hence the defaults of its models have literals, the models have sections, and both documents
can be rendered.

* `Schema.hasDocument_of_load`: what was loaded has a document;
* `DocumentPair.exists_ofModels_of_load`: the documents of loaded models can be rendered.
-/

namespace SchemaDocs

open Results

namespace Value

/-! ## Parts of values with a document -/

mutual

theorem hasDocument_ofJson : ∀ j : Json, j.Tidy → (ofJson j).HasDocument
  | .null, _ => ⟨_, rfl⟩
  | .bool _, _ => ⟨_, rfl⟩
  | .int n, hj => ⟨.int n, if_pos hj⟩
  | .real _, _ => ⟨_, rfl⟩
  | .string _, _ => ⟨_, rfl⟩
  | .array items, hj => hasDocument_list_iff.mpr (hasDocument_ofJsonItems items hj)
  | .object members, hj => hasDocument_map_iff.mpr (hasDocument_ofJsonMembers members hj.2)

theorem hasDocument_ofJsonItems : ∀ items : List Json, Json.TidyItems items →
    ∀ v ∈ ofJsonItems items, v.HasDocument
  | [], _ => List.forall_mem_nil _
  | j :: rest, hj => List.forall_mem_cons.mpr
    ⟨hasDocument_ofJson j hj.1, hasDocument_ofJsonItems rest hj.2⟩

theorem hasDocument_ofJsonMembers : ∀ members : List (Text × Json), Json.TidyMembers members →
    ∀ e ∈ ofJsonMembers members, e.2.HasDocument
  | [], _ => List.forall_mem_nil _
  | (_, j) :: rest, hj => List.forall_mem_cons.mpr
    ⟨hasDocument_ofJson j hj.1, hasDocument_ofJsonMembers rest hj.2⟩

end

theorem hasDocument_getD {access : Access} {entries : List (Text × Value)}
    (h : (map access entries).HasDocument) (key : Text) : (getD key entries).HasDocument := by
  cases access with
  | readOnly =>
      obtain ⟨j, hj⟩ := h
      cases hj
  | writable =>
      unfold getD
      cases hvalue : valueAt? key entries with
      | none => exact hasDocument_null
      | some v => exact hasDocument_map_iff.mp h _ (mem_of_valueAt? hvalue)

theorem HasDocument.under {v : Value} (h : v.HasDocument) (key : Text) :
    (v.under key).HasDocument := by
  cases v with
  | map access entries => exact hasDocument_getD h key
  | _ => exact hasDocument_null

theorem HasDocument.items {v : Value} (h : v.HasDocument) : ∀ w ∈ v.items, w.HasDocument := by
  cases v with
  | list access items => exact hasDocument_list_iff.mp h
  | _ => exact List.forall_mem_nil _

end Value

/-! ## What was loaded -/

namespace Json

theorem Tidy.valueAt? {members : List (Text × Json)} (h : Tidy (.object members)) {key : Text}
    {j : Json} (hj : valueAt? key members = some j) : j.Tidy :=
  tidyMembers_iff.mp h.2 _ (mem_of_valueAt? hj)

end Json

namespace Schema

theorem tidy_dataModel {document : Json} (h : document.Tidy) : (dataModel document).Tidy := by
  unfold dataModel
  split
  · split
    · next inner hinner => exact h.valueAt? hinner
    · exact h
  · exact h

theorem tidy_of_modelList? {document : Json} {items : List Json} (h : document.Tidy)
    (hitems : modelList? document = some items) : (Json.array items).Tidy := by
  have hmodel := tidy_dataModel h
  unfold modelList? at hitems
  split at hitems
  · next list hlist =>
      cases hitems
      rwa [hlist] at hmodel
  · next members hmembers =>
      rw [hmembers] at hmodel
      split at hitems
      · next list hlist =>
          cases hitems
          exact hmodel.valueAt? hlist
      · cases hitems
  · cases hitems

theorem hasDocument_of_ofText {t : Text} {raw : Value} (h : ofText t = .ok raw) :
    raw.HasDocument := by
  unfold ofText at h
  split at h
  · cases h
  · cases h
  · next document hdocument =>
      split at h
      · next items hitems =>
          cases h
          exact Value.hasDocument_ofJson _ (tidy_of_modelList? (Json.tidy_of_read hdocument) hitems)
      · cases h

theorem hasDocument_of_load {p : Path} {w v : World} {raw : Value} (h : load p w = .ok raw v) :
    raw.HasDocument := by
  obtain ⟨_, _, -, h⟩ := Run.bind_eq_ok.mp h
  obtain ⟨found, _, -, h⟩ := Run.bind_eq_ok.mp h
  cases found with
  | false => cases h
  | true =>
      obtain ⟨t, _, -, h⟩ := Run.bind_eq_ok.mp h
      exact hasDocument_of_ofText (Run.ofExcept_eq_ok.mp h).1

end Schema

/-! ## The models of what was loaded -/

namespace Field

theorem hasDocument_unlock_defaultOfRaw {raw : Value} (h : raw.HasDocument) :
    (defaultOfRaw raw).unlock.HasDocument := by
  unfold defaultOfRaw
  split
  · split
    · next access entries =>
        dsimp only
        split
        · exact Value.hasDocument_unlock _ (Value.hasDocument_getD h "name")
        · exact Value.hasDocument_unlock_lock _ h
    · exact Value.hasDocument_unlock_lock _ h
  · exact Value.hasDocument_null

theorem Reads.exists_attributes {raw : Value} {f : Field} (h : Reads raw f)
    (hraw : raw.HasDocument) : ∃ attributes, f.attributes = .ok attributes := by
  have hdefault : f.default.unlock.HasDocument := by
    rw [h.default]
    exact hasDocument_unlock_defaultOfRaw (hraw.under "default")
  obtain ⟨l, hl⟩ := Value.exists_literal_of_hasDocument _ hdefault
  rw [Value.literal_unlock] at hl
  exact exists_attributes_iff.mpr ⟨l, hl⟩

end Field

theorem ModelSection.exists_listOfModels_of_hasDocument {raw : Value} (hraw : raw.HasDocument)
    {models : List Model} (h : Model.listOfValue raw = .ok models) :
    ∃ sections, listOfModels models = .ok sections := by
  obtain ⟨-, hmodels⟩ := Model.listOfValue_eq_ok.mp h
  refine exists_listOfModels fun m hm => ?_
  obtain ⟨rawModel, hrawModel, hreads⟩ := exists_of_mem_right hmodels hm
  refine ⟨hreads.name_ne_nil, fun f hf => ?_⟩
  obtain ⟨rawField, hrawField, hfield⟩ := exists_of_mem_right hreads.fields hf
  have hfields := ((hraw.items _ hrawModel).under "fields").items
  exact ⟨hfield.name_ne_nil, hfield.type_ne_nil, hfield.exists_attributes (hfields _ hrawField)⟩

namespace DocumentPair

theorem exists_ofModels (title : Text) {models : List Model} {sections : List ModelSection}
    (h : ModelSection.listOfModels models = .ok sections) : ∃ d, ofModels title models = .ok d := by
  obtain ⟨html, hhtml⟩ := Html.exists_render title h
  have hmarkdown : Markdown.render title models = .ok (Markdown.document title sections) :=
    map_eq_ok.mpr ⟨sections, h, rfl⟩
  exact ⟨_, bind_eq_ok.mpr ⟨html, hhtml, bind_eq_ok.mpr ⟨_, hmarkdown, rfl⟩⟩⟩

theorem exists_ofModels_of_load (title : Text) {p : Path} {w v : World} {raw : Value}
    (hraw : Schema.load p w = .ok raw v) {models : List Model}
    (h : Model.listOfValue raw = .ok models) : ∃ d, ofModels title models = .ok d := by
  obtain ⟨sections, hsections⟩ :=
    ModelSection.exists_listOfModels_of_hasDocument (Schema.hasDocument_of_load hraw) h
  exact exists_ofModels title hsections

end DocumentPair

end SchemaDocs
