import SchemaDocs.Proofs.Results
import SchemaDocs.Schema.Model
/-!
# What models are read from

A raw value is read as a field, as a model or as a list of models exactly if it has the shape of
one, and then every part of the record is told by what the raw value holds under a key.  Positions
count in the messages only.

* `Field.ofValue_eq_ok`, `Model.ofValue_eq_ok`, `Model.listOfValue_eq_ok`: the shapes.
-/

namespace SchemaDocs

open Results

namespace Value

/-- What a value holds under a key, `null` if there is nothing. -/
def under (key : Text) (v : Value) : Value :=
  (v.get? key).getD .null

/-- The items of a list; anything else has none. -/
def items : Value → List Value
  | .list _ items => items
  | _ => []

def IsList (v : Value) : Prop :=
  ∃ access items, v = .list access items

theorem under_map (key : Text) (access : Access) (entries : List (Text × Value)) :
    (map access entries).under key = getD key entries := rfl

theorem exists_map_of_under_eq_text {key t : Text} {v : Value} (h : v.under key = .text t) :
    ∃ access entries, v = .map access entries := by
  cases v with
  | map access entries => exact ⟨access, entries, rfl⟩
  | _ => cases h

end Value

namespace Field

structure Reads (raw : Value) (f : Field) : Prop where
  name : raw.under "name" = .text f.name
  name_ne_nil : f.name ≠ []
  type : raw.under "type" = .text f.type
  type_ne_nil : f.type ≠ []
  isRequired : f.isRequired = (raw.under "isRequired").isPresent
  isUnique : f.isUnique = (raw.under "isUnique").isPresent
  isId : f.isId = (raw.under "isId").isPresent
  default : f.default = defaultOfRaw (raw.under "default")
  updatedAt : f.updatedAt =
    ((raw.under "hasDefaultValue").isPresent && f.default.equals (.text "updatedAt"))
  relation : f.relation =
    if (raw.under "relationName").isPresent then some (relationText f.type) else none

theorem ofValue_eq_ok {model : Text} {index : Nat} {raw : Value} {f : Field} :
    ofValue model index raw = .ok f ↔ Reads raw f := by
  constructor
  · intro h
    unfold ofValue at h
    split at h
    · next access entries =>
        split at h
        · next name type hname htype =>
            split at h
            · cases h
            · next hblank =>
                rw [Bool.or_eq_true, List.isEmpty_iff, List.isEmpty_iff, not_or] at hblank
                cases h
                exact ⟨hname, hblank.1, htype, hblank.2, rfl, rfl, rfl, rfl, rfl, rfl⟩
        · cases h
    · cases h
  · intro h
    obtain ⟨access, entries, rfl⟩ := Value.exists_map_of_under_eq_text h.name
    have hblank : (f.name.isEmpty || f.type.isEmpty) = false := by
      simp [h.name_ne_nil, h.type_ne_nil]
    have hname := h.name
    have htype := h.type
    rw [Value.under_map] at hname htype
    unfold ofValue
    simp only [hname, htype, hblank, Bool.false_eq_true, if_false, ← Value.under_map _ access,
      ← h.isRequired, ← h.isUnique, ← h.isId, ← h.default, ← h.updatedAt, ← h.relation]

theorem listOfValues_eq_ok {model : Text} {index : Nat} {raws : List Value} {fields : List Field} :
    listOfValues model index raws = .ok fields ↔ List.Forall₂ Reads raws fields := by
  induction raws generalizing index fields with
  | nil => cases fields <;> simp [listOfValues]
  | cons raw rest ih =>
      rw [listOfValues, cons_eq_ok]
      simp only [ofValue_eq_ok, ih, List.forall₂_cons_left_iff]

end Field

namespace Model

structure Reads (raw : Value) (m : Model) : Prop where
  name : raw.under "name" = .text m.name
  name_ne_nil : m.name ≠ []
  isList : (raw.under "fields").IsList
  fields : List.Forall₂ Field.Reads (raw.under "fields").items m.fields

theorem ofValue_eq_ok {index : Nat} {raw : Value} {m : Model} :
    ofValue index raw = .ok m ↔ Reads raw m := by
  constructor
  · intro h
    unfold ofValue at h
    split at h
    · next access entries =>
        split at h
        · next name hname =>
            split at h
            · cases h
            · next hblank =>
                rw [List.isEmpty_iff] at hblank
                split at h
                · next listAccess raws hraws =>
                    obtain ⟨fields, hfields, rfl⟩ := map_eq_ok.mp h
                    refine ⟨hname, hblank, ⟨listAccess, raws, hraws⟩, ?_⟩
                    rw [Value.under_map, hraws]
                    exact Field.listOfValues_eq_ok.mp hfields
                · cases h
        · cases h
    · cases h
  · intro h
    obtain ⟨access, entries, rfl⟩ := Value.exists_map_of_under_eq_text h.name
    obtain ⟨listAccess, raws, hraws⟩ := h.isList
    have hname := h.name
    have hfields := h.fields
    rw [hraws] at hfields
    rw [Value.under_map] at hname hraws
    have hblank : m.name.isEmpty = false := by simp [h.name_ne_nil]
    unfold ofValue
    simp only [hname, hblank, Bool.false_eq_true, if_false, hraws]
    exact map_eq_ok.mpr ⟨m.fields, Field.listOfValues_eq_ok.mpr hfields, rfl⟩

theorem listOfValues_eq_ok {index : Nat} {raws : List Value} {models : List Model} :
    listOfValues index raws = .ok models ↔ List.Forall₂ Reads raws models := by
  induction raws generalizing index models with
  | nil => cases models <;> simp [listOfValues]
  | cons raw rest ih =>
      rw [listOfValues, cons_eq_ok]
      simp only [ofValue_eq_ok, ih, List.forall₂_cons_left_iff]

theorem listOfValue_eq_ok {raw : Value} {models : List Model} :
    listOfValue raw = .ok models ↔ raw.IsList ∧ List.Forall₂ Reads raw.items models := by
  constructor
  · intro h
    unfold listOfValue at h
    split at h
    · next access raws => exact ⟨⟨access, raws, rfl⟩, listOfValues_eq_ok.mp h⟩
    · cases h
  · rintro ⟨⟨access, raws, rfl⟩, h⟩
    exact listOfValues_eq_ok.mpr h

end Model

end SchemaDocs
