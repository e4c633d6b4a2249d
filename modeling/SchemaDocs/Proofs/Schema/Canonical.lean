import SchemaDocs.Proofs.Schema.Loaded
import SchemaDocs.Proofs.Text.Split
import SchemaDocs.Proofs.Value.Locked
/-!
# Canonical fields and their attributes

A field that was read has a default that is absent or present, is marked as updated only by the text
of that mark as its default, and has the relation of its type or none.  So its attributes stand in
one fixed order, each kind at most once.

* `Field.Reads.canonical`: what reading makes of a field;
* `Field.Reads.inOrder`: in which order the attributes of such a field are shown;
* `Model.canonical_listOfValue`: both for all fields of the models of a raw value.
-/

namespace SchemaDocs

open Results

/-! ## Values -/

namespace Value

theorem equals_text_iff {v : Value} {t : Text} : v.equals (.text t) = true ↔ v = .text t := by
  cases v with
  | text s => simp [equals, scalarEquals]
  | _ => simp [equals, scalarEquals, integer?]

end Value

/-! ## Canonical fields -/

namespace Field

theorem isPresent_defaultOfRaw (raw : Value) :
    defaultOfRaw raw = .null ∨ (defaultOfRaw raw).isPresent = true := by
  unfold defaultOfRaw
  by_cases hraw : raw.isPresent = true
  · rw [if_pos hraw]
    have hlock : raw.lock.isPresent = true := by rw [Value.isPresent_lock, hraw]
    split
    · next access entries =>
        dsimp only
        split
        · next hname => exact .inr hname
        · exact .inr hlock
    · exact .inr hlock
  · rw [if_neg hraw]
    exact .inl rfl

/-- What reading makes of a field. -/
structure Canonical (raw : Value) (f : Field) : Prop where
  default : f.default = .null ∨ f.default.isPresent = true
  updatedAt : f.updatedAt = true ↔
    (raw.under "hasDefaultValue").isPresent = true ∧ f.default = .text "updatedAt"
  relation : f.relation = none ∨ f.relation = some ("@relation(" ++ f.type ++ ")")

theorem Reads.canonical {raw : Value} {f : Field} (h : Reads raw f) : Canonical raw f where
  default := by
    rw [h.default]
    exact isPresent_defaultOfRaw _
  updatedAt := by
    rw [h.updatedAt, Bool.and_eq_true, Value.equals_text_iff]
  relation := by
    rw [h.relation]
    split
    · exact .inr rfl
    · exact .inl rfl

/-! ## Attributes in order -/

/-- All kinds of attributes in the order in which they are shown, for the literal of a default and
for a type. -/
def attributeOrder (literal type : Text) : List Attribute := [
  { text := "@id" }, { text := "@unique" }, { text := "@default(" ++ literal ++ ")" },
  { text := "@updatedAt" }, { text := "@relation(" ++ type ++ ")", target := some type }]

theorem sublist_singleton_ite {α : Type} (b : Bool) (x : α) :
    (if b then [x] else []).Sublist [x] := by
  cases b with
  | false => exact List.nil_sublist _
  | true => exact .refl _

theorem sublist_defaultAttribute {f : Field} {default : List Attribute}
    (h : f.defaultAttribute = .ok default) :
    ∃ literal, f.default.literal = .ok literal ∧
      default.Sublist [{ text := "@default(" ++ literal ++ ")" }] := by
  unfold defaultAttribute at h
  split at h
  · next hnull =>
      cases h
      exact ⟨"None", by rw [hnull]; rfl, List.nil_sublist _⟩
  · obtain ⟨literal, hliteral, rfl⟩ := map_eq_ok.mp h
    exact ⟨literal, hliteral, .refl _⟩

theorem Canonical.sublist_relationAttribute {raw : Value} {f : Field} (h : Canonical raw f) :
    f.relationAttribute.Sublist
      [{ text := "@relation(" ++ f.type ++ ")", target := some f.type }] := by
  unfold relationAttribute
  rcases h.relation with hnone | hsome
  · rw [hnone]
    exact List.nil_sublist _
  · rw [hsome]
    dsimp only
    split
    · exact List.nil_sublist _
    · exact .refl _

/-- The attributes of a canonical field are some of all kinds, in their order. -/
theorem Canonical.sublist_attributes {raw : Value} {f : Field} (h : Canonical raw f)
    {attributes : List Attribute} (hattributes : f.attributes = .ok attributes) :
    ∃ literal, f.default.literal = .ok literal ∧
      attributes.Sublist (attributeOrder literal f.type) := by
  obtain ⟨default, hdefault, rfl⟩ := map_eq_ok.mp hattributes
  obtain ⟨literal, hliteral, hsub⟩ := sublist_defaultAttribute hdefault
  refine ⟨literal, hliteral, ?_⟩
  have hid := sublist_singleton_ite f.isId ({ text := "@id" } : Attribute)
  have hunique := sublist_singleton_ite f.isUnique ({ text := "@unique" } : Attribute)
  have hupdated := sublist_singleton_ite f.updatedAt ({ text := "@updatedAt" } : Attribute)
  exact (((hid.append hunique).append hsub).append hupdated).append h.sublist_relationAttribute

theorem forall_mem_attributeOrder {P : Attribute → Prop} {literal type : Text}
    (hfixed : ∀ s ∈ ["@id", "@unique", "@updatedAt"], P { text := Text.ofString s })
    (hdefault : P { text := "@default(" ++ literal ++ ")" })
    (hrelation : P { text := "@relation(" ++ type ++ ")", target := some type }) :
    ∀ a ∈ attributeOrder literal type, P a := by
  simp only [List.forall_mem_cons] at hfixed
  obtain ⟨hid, hunique, hupdated, -⟩ := hfixed
  simp only [attributeOrder, List.forall_mem_cons]
  exact ⟨hid, hunique, hdefault, hupdated, hrelation, List.forall_mem_nil _⟩

theorem target_of_mem_attributeOrder {literal type : Text} :
    ∀ a ∈ attributeOrder literal type,
      (a.target.isSome = true ↔ a.text.startsWith "@relation(" = true) ∧
        ∀ t ∈ a.target, a.text = "@relation(" ++ t ++ ")" := by
  apply forall_mem_attributeOrder
  · decide
  · have hdiffers : Text.differs "@relation(" ("@default(" ++ (literal ++ ")")) :=
      Text.differs_append (by decide) _
    simp [Text.startsWith, Text.dropStart?_of_differs hdiffers]
  · simp [Text.startsWith]

theorem head?_of_mem_attributeOrder {literal type : Text} :
    ∀ a ∈ attributeOrder literal type, a.text.head? = some (CodePoint.ofChar '@') := by
  apply forall_mem_attributeOrder
  · decide
  · rfl
  · rfl

/-- The attributes of a field in their order: some of all kinds, with a link exactly on that of a
relation, which is the last one, and with the mark of an update right after its default. -/
structure InOrder (f : Field) (attributes : List Attribute) : Prop where
  order : ∃ literal, f.default.literal = .ok literal ∧
    attributes.Sublist (attributeOrder literal f.type)
  target : ∀ a ∈ attributes,
    a.target.isSome = true ↔ a.text.startsWith "@relation(" = true
  relation : ∀ a ∈ attributes, ∀ t ∈ a.target,
    attributes.getLast? = some a ∧ a.text = "@relation(" ++ t ++ ")"
  updatedAt : ∀ (before after : List Attribute) (a : Attribute),
    attributes = before ++ a :: after → a.text = "@updatedAt" →
      before.getLast? = some { text := "@default(updatedAt)" }
  line : ∀ s : FieldSection, s.attributes = attributes →
    (s.attributeLine = "-" ↔ attributes = [])

/-- Attributes have a line of a dash only if there are none: each of them begins with an at sign. -/
theorem attributeLine_eq_dash_iff {s : FieldSection}
    (h : ∀ a ∈ s.attributes, a.text.head? = some (CodePoint.ofChar '@')) :
    s.attributeLine = "-" ↔ s.attributes = [] := by
  unfold FieldSection.attributeLine
  cases hattributes : s.attributes with
  | nil => exact iff_of_true rfl rfl
  | cons a rest =>
      rw [hattributes] at h
      obtain ⟨tail, htext⟩ := List.head?_eq_some_iff.mp (h a List.mem_cons_self)
      obtain ⟨line, hline⟩ : ∃ line, Text.join ", " ((a :: rest).map Attribute.text) =
          CodePoint.ofChar '@' :: line := by
        cases rest with
        | nil => exact ⟨tail, htext⟩
        | cons b rest =>
            rw [List.map_cons, Text.join_cons _ _ (by simp), htext]
            exact ⟨_, rfl⟩
      dsimp only
      rw [hline]
      refine iff_of_false ?_ nofun
      intro hdash
      exact absurd (List.cons.inj hdash).1 (by decide)

/-- The attributes of a field in parts: first those of the identifier, of uniqueness and of the
default, which have no target and are no mark of an update; then this mark; then the relation. -/
theorem attributes_eq_append {f : Field} {attributes : List Attribute}
    (h : f.attributes = .ok attributes) :
    ∃ front default, f.defaultAttribute = .ok default ∧
      attributes = front ++ default ++ (if f.updatedAt then [{ text := "@updatedAt" }] else []) ++
        f.relationAttribute ∧
      ∀ a ∈ front ++ default, a.target = none ∧ a.text ≠ "@updatedAt" := by
  obtain ⟨default, hdefault, rfl⟩ := map_eq_ok.mp h
  obtain ⟨literal, -, hsub⟩ := sublist_defaultAttribute hdefault
  refine ⟨_, default, hdefault, rfl, ?_⟩
  have hpart : ∀ {part : List Attribute} {t : Text}, part.Sublist [{ text := t }] →
      t ≠ "@updatedAt" → ∀ a ∈ part, a.target = none ∧ a.text ≠ "@updatedAt" := by
    intro part t hsub ht a ha
    rw [List.mem_singleton.mp (hsub.subset ha)]
    exact ⟨rfl, ht⟩
  have hliteral : ("@default(" ++ literal ++ ")" : Text) ≠ "@updatedAt" := fun heq =>
    absurd (List.cons.inj (List.cons.inj heq).2).1 (by decide)
  simp only [List.forall_mem_append]
  exact ⟨⟨hpart (sublist_singleton_ite _ _) (by decide),
    hpart (sublist_singleton_ite _ _) (by decide)⟩, hpart hsub hliteral⟩

namespace Canonical

variable {raw : Value} {f : Field} {attributes : List Attribute}

theorem getLast?_eq_of_target (h : Canonical raw f) (hattributes : f.attributes = .ok attributes)
    {a : Attribute} (ha : a ∈ attributes) {t : Text} (ht : t ∈ a.target) :
    attributes.getLast? = some a := by
  obtain ⟨front, default, -, rfl, hfront⟩ := attributes_eq_append hattributes
  have hrelation : a ∈ f.relationAttribute := by
    rcases List.mem_append.mp ha with hmem | hmem
    · have hnone : a.target = none := by
        rcases List.mem_append.mp hmem with hmem | hmem
        · exact (hfront a hmem).1
        · rw [List.mem_singleton.mp ((sublist_singleton_ite _ _).subset hmem)]
      rw [hnone] at ht
      cases ht
    · exact hmem
  rcases List.sublist_singleton.mp h.sublist_relationAttribute with hnil | hone
  · rw [hnil] at hrelation
    exact absurd hrelation List.not_mem_nil
  · rw [hone] at hrelation ⊢
    rw [List.mem_singleton.mp hrelation, List.getLast?_concat]

theorem text_ne_of_mem_relationAttribute (h : Canonical raw f) :
    ∀ a ∈ f.relationAttribute, a.text ≠ "@updatedAt" := by
  intro a ha
  rw [List.mem_singleton.mp (h.sublist_relationAttribute.subset ha)]
  intro heq
  exact absurd (List.cons.inj (List.cons.inj heq).2).1 (by decide)

/-- The mark of an update follows its default: there is only one mark, and it is shown for this
default only. -/
theorem getLast?_eq_of_updatedAt (h : Canonical raw f)
    (hattributes : f.attributes = .ok attributes) {before after : List Attribute} {a : Attribute}
    (hsplit : attributes = before ++ a :: after) (ha : a.text = "@updatedAt") :
    before.getLast? = some { text := "@default(updatedAt)" } := by
  obtain ⟨front, default, hdefault, hparts, hfront⟩ := attributes_eq_append hattributes
  have hrelation := h.text_ne_of_mem_relationAttribute
  have hmem : a ∈ attributes := by
    rw [hsplit]
    exact List.mem_append_right _ List.mem_cons_self
  rw [hparts, List.mem_append, List.mem_append] at hmem
  have hmark : a ∈ if f.updatedAt then [{ text := "@updatedAt" }] else [] := by
    rcases hmem with (hmem | hmem) | hmem
    · exact absurd ha (hfront a hmem).2
    · exact hmem
    · exact absurd ha (hrelation a hmem)
  cases hupdated : f.updatedAt with
  | false =>
      rw [hupdated] at hmark
      exact absurd hmark List.not_mem_nil
  | true =>
      rw [hupdated] at hmark hparts
      have hliteral : default = [{ text := "@default(updatedAt)" }] := by
        rw [defaultAttribute, (h.updatedAt.mp hupdated).2] at hdefault
        exact (Except.ok.inj hdefault).symm
      have hfirst : a ∉ front ++ default := fun hmem => (hfront a hmem).2 ha
      have hlater : a ∉ f.relationAttribute := fun hmem => hrelation a hmem ha
      rw [hsplit, if_pos rfl, ← List.mem_singleton.mp hmark, List.append_assoc,
        List.singleton_append] at hparts
      obtain ⟨rfl, -, -⟩ := (List.append_cons_inj_of_notMem hfirst hlater).mp hparts.symm
      rw [hliteral, List.getLast?_concat]

theorem inOrder (h : Canonical raw f) (hattributes : f.attributes = .ok attributes) :
    InOrder f attributes := by
  obtain ⟨literal, hliteral, hsub⟩ := h.sublist_attributes hattributes
  have htarget : ∀ a ∈ attributes, _ := fun a ha =>
    target_of_mem_attributeOrder a (hsub.subset ha)
  refine ⟨⟨literal, hliteral, hsub⟩, fun a ha => (htarget a ha).1, fun a ha t ht => ?_,
    fun before after a hsplit ha => h.getLast?_eq_of_updatedAt hattributes hsplit ha,
    fun s hs => ?_⟩
  · exact ⟨h.getLast?_eq_of_target hattributes ha ht, (htarget a ha).2 t ht⟩
  · rw [attributeLine_eq_dash_iff, hs]
    intro a ha
    rw [hs] at ha
    exact head?_of_mem_attributeOrder a (hsub.subset ha)

end Canonical

end Field

/-! ## The fields of a schema -/

namespace Model

/-- Every field of the models of a raw value is canonical.  Its attributes can be told exactly if
its default has a literal, as it has if the raw field can be written as JSON, and then they are in
order. -/
theorem canonical_listOfValue {raw : Value} {models : List Model}
    (h : listOfValue raw = .ok models) :
    List.Forall₂ (fun rawModel m => List.Forall₂ (fun rawField f =>
        Field.Canonical rawField f ∧
        ((∃ attributes, f.attributes = .ok attributes) ↔
          ∃ literal, f.default.literal = .ok literal) ∧
        (rawField.HasDocument → ∃ attributes, f.attributes = .ok attributes) ∧
        ∀ attributes, f.attributes = .ok attributes → Field.InOrder f attributes)
      (rawModel.under "fields").items m.fields) raw.items models := by
  obtain ⟨-, hmodels⟩ := listOfValue_eq_ok.mp h
  refine hmodels.imp fun rawModel m hm => ?_
  refine hm.fields.imp fun rawField f hf => ?_
  exact ⟨hf.canonical, Field.exists_attributes_iff, hf.exists_attributes,
    fun _ hattributes => hf.canonical.inOrder hattributes⟩

/-- A field with all kinds of attributes, and one with a function without a name as its default. -/
def updatedSchema : Value :=
  .list .writable [.map .writable [("name", .text "M"), ("fields", .list .readOnly [
    .map .writable [("name", .text "stamp"), ("type", .text "T"), ("isId", .int 1),
      ("isUnique", .bool true), ("hasDefaultValue", .text "yes"), ("relationName", .text "r"),
      ("default", .map .writable [("name", .text "updatedAt"), ("args", .list .writable [])])],
    .map .readOnly [("name", .text "plain"), ("type", .text "T"), ("hasDefaultValue", .bool true),
      ("default", .map .writable [("name", .text ""), ("args", .list .writable [.int 1])])]])]]

theorem canonical_listOfValue_updated :
    ∃ models, listOfValue updatedSchema = .ok models ∧
      List.Forall₂ (fun rawModel m => List.Forall₂ (fun rawField f =>
          Field.Canonical rawField f ∧
          ((∃ attributes, f.attributes = .ok attributes) ↔
            ∃ literal, f.default.literal = .ok literal) ∧
          (rawField.HasDocument → ∃ attributes, f.attributes = .ok attributes) ∧
          ∀ attributes, f.attributes = .ok attributes → Field.InOrder f attributes)
        (rawModel.under "fields").items m.fields) updatedSchema.items models :=
  ⟨_, rfl, canonical_listOfValue rfl⟩

end Model

end SchemaDocs
