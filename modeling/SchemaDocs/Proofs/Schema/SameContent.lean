import SchemaDocs.Proofs.Value.Reordered
/-!
# Schemas with the same content

Two raw schemas have the same content if they say the same about models and fields: other keys are
left out, of flags it counts only whether they are set, and the order of entries does not count at
any depth.  They are rejected alike, or they are read as models that only differ in the order of
entries in their defaults.

* `Model.SameContent`: what counts of a raw model;
* `Model.agree_listOfValues`: how models with the same content are read.
-/

namespace SchemaDocs

open Results (Agree)

namespace Value

def IsMap (v : Value) : Prop :=
  ∃ access entries, v = .map access entries

theorem Reordered.text_or {v w : Value} (h : Reordered v w) :
    (∃ t, v = .text t ∧ w = .text t) ∨ (∀ t, v ≠ .text t) ∧ ∀ t, w ≠ .text t := by
  cases h with
  | same =>
      cases v with
      | text t => exact .inl ⟨t, rfl, rfl⟩
      | _ => exact .inr ⟨nofun, nofun⟩
  | list => exact .inr ⟨nofun, nofun⟩
  | map => exact .inr ⟨nofun, nofun⟩

theorem Reordered.isMap_iff {v w : Value} (h : Reordered v w) : v.IsMap ↔ w.IsMap := by
  cases h with
  | same => exact Iff.rfl
  | list => exact iff_of_false nofun nofun
  | map => exact iff_of_true ⟨_, _, rfl⟩ ⟨_, _, rfl⟩

theorem Reordered.isList_iff {v w : Value} (h : Reordered v w) : v.IsList ↔ w.IsList := by
  cases h with
  | same => exact Iff.rfl
  | list => exact iff_of_true ⟨_, _, rfl⟩ ⟨_, _, rfl⟩
  | map => exact iff_of_false nofun nofun

theorem Reordered.items {v w : Value} (h : Reordered v w) :
    List.Forall₂ Reordered v.items w.items := by
  cases h with
  | same => exact List.forall₂_same.mpr fun u _ => .same u
  | list hitems => exact reorderedItems_iff.mp hitems
  | map => exact .nil

end Value

/-! ## Fields -/

namespace Field

/-- The keys of a raw field for which it counts only whether something present is there. -/
def flagKeys : List Text :=
  ["isRequired", "isUnique", "isId", "hasDefaultValue", "relationName"]

structure SameContent (raw other : Value) : Prop where
  isMap : raw.IsMap ↔ other.IsMap
  name : Value.Reordered (raw.under "name") (other.under "name")
  type : Value.Reordered (raw.under "type") (other.under "type")
  default : Value.Reordered (raw.under "default") (other.under "default")
  flags : ∀ key ∈ flagKeys, (raw.under key).isPresent = (other.under key).isPresent

theorem sameContent_of_reordered {raw other : Value} (h : Value.Reordered raw other) :
    SameContent raw other where
  isMap := h.isMap_iff
  name := h.under "name"
  type := h.under "type"
  default := h.under "default"
  flags := fun key _ => (h.under key).isPresent_eq

structure Reordered (f g : Field) : Prop where
  name : f.name = g.name
  type : f.type = g.type
  isRequired : f.isRequired = g.isRequired
  isUnique : f.isUnique = g.isUnique
  isId : f.isId = g.isId
  default : Value.Reordered f.default g.default
  updatedAt : f.updatedAt = g.updatedAt
  relation : f.relation = g.relation

theorem ofValue_of_not_isMap {raw : Value} (h : ¬ raw.IsMap) (model : Text) (index : Nat) :
    ofValue model index raw = .error (.fieldNotAnObject index model) := by
  cases raw with
  | map access entries => exact absurd ⟨access, entries, rfl⟩ h
  | _ => rfl

theorem ofValue_of_not_text {access : Access} {entries : List (Text × Value)}
    (h : (∀ t, Value.getD "name" entries ≠ .text t) ∨ ∀ t, Value.getD "type" entries ≠ .text t)
    (model : Text) (index : Nat) :
    ofValue model index (.map access entries) = .error (.fieldWithoutNameOrType index model) := by
  unfold ofValue
  dsimp only
  split
  · next name type hname htype =>
      rcases h with h | h
      · exact absurd hname (h name)
      · exact absurd htype (h type)
  · rfl

theorem SameContent.agree_ofValue {raw other : Value} (h : SameContent raw other) (model : Text)
    (index : Nat) : Agree Reordered (ofValue model index raw) (ofValue model index other) := by
  by_cases hraw : raw.IsMap
  · obtain ⟨access, entries, rfl⟩ := hraw
    obtain ⟨access', entries', rfl⟩ := h.isMap.mp ⟨access, entries, rfl⟩
    rcases h.name.text_or with ⟨name, hname, hname'⟩ | ⟨hname, hname'⟩
    · rcases h.type.text_or with ⟨type, htype, htype'⟩ | ⟨htype, htype'⟩
      · have hdefault := h.default.defaultOfRaw
        have hset := h.flags
        simp only [Value.under_map] at hname hname' htype htype' hdefault hset
        unfold ofValue
        simp only [hname, hname', htype, htype']
        by_cases hblank : (name.isEmpty || type.isEmpty) = true
        · rw [if_pos hblank, if_pos hblank]
          exact .error _
        · rw [if_neg hblank, if_neg hblank]
          have hupdated := hdefault.equals_text "updatedAt"
          refine .ok ⟨rfl, rfl, hset _ (by decide), hset _ (by decide), hset _ (by decide),
            hdefault, ?_, ?_⟩
          · simp only [hset "hasDefaultValue" (by decide), hupdated]
          · simp only [hset "relationName" (by decide)]
      · rw [ofValue_of_not_text (.inr htype), ofValue_of_not_text (.inr htype')]
        exact .error _
    · rw [ofValue_of_not_text (.inl hname), ofValue_of_not_text (.inl hname')]
      exact .error _
  · rw [ofValue_of_not_isMap hraw, ofValue_of_not_isMap (mt h.isMap.mpr hraw)]
    exact .error _

theorem agree_listOfValues {raws others : List Value} (h : List.Forall₂ SameContent raws others)
    (model : Text) (index : Nat) :
    Agree (List.Forall₂ Reordered) (listOfValues model index raws)
      (listOfValues model index others) := by
  induction h generalizing index with
  | nil => exact .ok .nil
  | cons hfirst _ ih => exact (hfirst.agree_ofValue model index).cons (ih (index + 1))

end Field

/-! ## Models -/

namespace Model

structure SameContent (raw other : Value) : Prop where
  isMap : raw.IsMap ↔ other.IsMap
  name : Value.Reordered (raw.under "name") (other.under "name")
  isList : (raw.under "fields").IsList ↔ (other.under "fields").IsList
  fields : List.Forall₂ Field.SameContent (raw.under "fields").items (other.under "fields").items

theorem sameContent_of_reordered {raw other : Value} (h : Value.Reordered raw other) :
    SameContent raw other where
  isMap := h.isMap_iff
  name := h.under "name"
  isList := (h.under "fields").isList_iff
  fields := (h.under "fields").items.imp fun _ _ => Field.sameContent_of_reordered

structure Reordered (m n : Model) : Prop where
  name : m.name = n.name
  fields : List.Forall₂ Field.Reordered m.fields n.fields

theorem ofValue_of_not_isMap {raw : Value} (h : ¬ raw.IsMap) (index : Nat) :
    ofValue index raw = .error (.modelNotAnObject index) := by
  cases raw with
  | map access entries => exact absurd ⟨access, entries, rfl⟩ h
  | _ => rfl

theorem ofValue_of_not_text {access : Access} {entries : List (Text × Value)}
    (h : ∀ t, Value.getD "name" entries ≠ .text t) (index : Nat) :
    ofValue index (.map access entries) = .error (.modelWithoutName index) := by
  unfold ofValue
  dsimp only
  split
  · next name hname => exact absurd hname (h name)
  · rfl

theorem SameContent.agree_ofValue {raw other : Value} (h : SameContent raw other) (index : Nat) :
    Agree Reordered (ofValue index raw) (ofValue index other) := by
  by_cases hraw : raw.IsMap
  · obtain ⟨access, entries, rfl⟩ := hraw
    obtain ⟨access', entries', rfl⟩ := h.isMap.mp ⟨access, entries, rfl⟩
    rcases h.name.text_or with ⟨name, hname, hname'⟩ | ⟨hname, hname'⟩
    · have hlists := h.isList
      have hfields := h.fields
      simp only [Value.under_map] at hname hname' hlists hfields
      unfold ofValue
      simp only [hname, hname']
      by_cases hblank : name.isEmpty = true
      · rw [if_pos hblank, if_pos hblank]
        exact .error _
      · rw [if_neg hblank, if_neg hblank]
        by_cases hlist : (Value.getD "fields" entries).IsList
        · obtain ⟨listAccess', raws', hraws'⟩ := hlists.mp hlist
          obtain ⟨listAccess, raws, hraws⟩ := hlist
          rw [hraws, hraws'] at hfields ⊢
          exact (Field.agree_listOfValues hfields name 0).map fun _ _ hs => ⟨rfl, hs⟩
        · have hother := mt hlists.mpr hlist
          split
          · next listAccess raws hraws => exact absurd ⟨listAccess, raws, hraws⟩ hlist
          · split
            · next listAccess raws hraws => exact absurd ⟨listAccess, raws, hraws⟩ hother
            · exact .error _
    · rw [ofValue_of_not_text hname, ofValue_of_not_text hname']
      exact .error _
  · rw [ofValue_of_not_isMap hraw, ofValue_of_not_isMap (mt h.isMap.mpr hraw)]
    exact .error _

theorem agree_listOfValues {raws others : List Value} (h : List.Forall₂ SameContent raws others)
    (index : Nat) :
    Agree (List.Forall₂ Reordered) (listOfValues index raws) (listOfValues index others) := by
  induction h generalizing index with
  | nil => exact .ok .nil
  | cons hfirst _ ih => exact (hfirst.agree_ofValue index).cons (ih (index + 1))

end Model

end SchemaDocs
