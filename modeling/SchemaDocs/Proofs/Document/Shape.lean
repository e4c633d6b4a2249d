import SchemaDocs.Proofs.Document.Sections
/-!
# Shapes of schemas

Two schemas have one shape if their models have as many fields and corresponding fields have the
same attributes, whatever the texts and values in them are.  The sections of two such schemas show
attributes of the same kinds.

* `ModelSection.sameShape_of_listOfModels`: the sections of two schemas of one shape.
-/

namespace SchemaDocs

open Results

/-! ## Shapes -/

/-- Two fields of one shape have the same attributes, up to their texts. -/
structure Field.SameShape (f g : Field) : Prop where
  isId : f.isId = g.isId
  isUnique : f.isUnique = g.isUnique
  default : f.default = .null ↔ g.default = .null
  updatedAt : f.updatedAt = g.updatedAt
  relation : f.relationAttribute = [] ↔ g.relationAttribute = []

def Model.SameShape (m n : Model) : Prop :=
  List.Forall₂ Field.SameShape m.fields n.fields

def Attribute.SameKind (a b : Attribute) : Prop :=
  a.target.isSome = b.target.isSome

def FieldSection.SameShape (s t : FieldSection) : Prop :=
  List.Forall₂ Attribute.SameKind s.attributes t.attributes

def ModelSection.SameShape (s t : ModelSection) : Prop :=
  List.Forall₂ FieldSection.SameShape s.fields t.fields

namespace Field

theorem sameKind_flag {b c : Bool} (h : b = c) (s : String) :
    List.Forall₂ Attribute.SameKind (if b then [{ text := s }] else [])
      (if c then [{ text := s }] else []) := by
  cases h
  cases b with
  | false => exact .nil
  | true => exact .cons rfl .nil

theorem sameKind_defaultAttribute {f g : Field} (h : f.default = .null ↔ g.default = .null)
    {as bs : List Attribute} (ha : f.defaultAttribute = .ok as) (hb : g.defaultAttribute = .ok bs) :
    List.Forall₂ Attribute.SameKind as bs := by
  unfold defaultAttribute at ha hb
  split at ha
  · next hf =>
      rw [h.mp hf] at hb
      cases ha
      cases hb
      exact .nil
  · next hf =>
      split at hb
      · next hg => exact absurd (h.mpr hg) hf
      · obtain ⟨_, -, rfl⟩ := map_eq_ok.mp ha
        obtain ⟨_, -, rfl⟩ := map_eq_ok.mp hb
        exact .cons rfl .nil

theorem relationAttribute_eq (f : Field) :
    f.relationAttribute = [] ∨
      ∃ relation, f.relationAttribute = [{ text := relation, target := some f.type }] := by
  unfold relationAttribute
  split
  · exact .inl rfl
  · split
    · exact .inl rfl
    · exact .inr ⟨_, rfl⟩

theorem sameKind_relationAttribute {f g : Field}
    (h : f.relationAttribute = [] ↔ g.relationAttribute = []) :
    List.Forall₂ Attribute.SameKind f.relationAttribute g.relationAttribute := by
  rcases f.relationAttribute_eq with hf | ⟨_, hf⟩
  · rw [hf, h.mp hf]
    exact .nil
  · rcases g.relationAttribute_eq with hg | ⟨_, hg⟩
    · rw [hg, h.mpr hg]
      exact .nil
    · rw [hf, hg]
      exact .cons rfl .nil

theorem SameShape.attributes {f g : Field} (h : f.SameShape g) {as bs : List Attribute}
    (ha : f.attributes = .ok as) (hb : g.attributes = .ok bs) :
    List.Forall₂ Attribute.SameKind as bs := by
  obtain ⟨_, hdefault, rfl⟩ := map_eq_ok.mp ha
  obtain ⟨_, hdefault', rfl⟩ := map_eq_ok.mp hb
  exact List.rel_append (List.rel_append (List.rel_append (List.rel_append
    (sameKind_flag h.isId _) (sameKind_flag h.isUnique _))
    (sameKind_defaultAttribute h.default hdefault hdefault')) (sameKind_flag h.updatedAt _))
    (sameKind_relationAttribute h.relation)

end Field

/-! ## Sections -/

namespace FieldSection

theorem Shows.sameShape {model model' : Text} {f g : Field} {s t : FieldSection}
    (hs : Shows model f s) (ht : Shows model' g t) (h : f.SameShape g) : s.SameShape t :=
  h.attributes hs.attributes ht.attributes

end FieldSection

namespace ModelSection

theorem Shows.sameShape {m n : Model} {s t : ModelSection} (hs : Shows m s) (ht : Shows n t)
    (h : m.SameShape n) : s.SameShape t :=
  forall₂_of_related hs.fields ht.fields h fun _ _ _ _ hs ht h => hs.sameShape ht h

theorem sameShape_of_listOfModels {models models' : List Model}
    {sections sections' : List ModelSection} (h : listOfModels models = .ok sections)
    (h' : listOfModels models' = .ok sections')
    (hshape : List.Forall₂ Model.SameShape models models') :
    List.Forall₂ SameShape sections sections' :=
  forall₂_of_related (listOfModels_eq_ok.mp h) (listOfModels_eq_ok.mp h') hshape
    fun _ _ _ _ hs ht h => hs.sameShape ht h

end ModelSection

end SchemaDocs
