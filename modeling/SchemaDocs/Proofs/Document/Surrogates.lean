import SchemaDocs.DocumentPair
import SchemaDocs.Proofs.Document.Sections
import SchemaDocs.Proofs.Html.ScriptText
import SchemaDocs.Proofs.Value.Literal
/-!
# Surrogates in the two documents

Both documents show the same texts: the title, and the names, descriptions, types and attributes of
the sections.  What else they hold is fixed or printable ASCII, so either both of them can be
encoded or neither.

* `surrogateFree_markdown`: if the page can be encoded, so can the Markdown document;
* `surrogateFree_html`: if the Markdown document can be encoded, so can the page.
-/

namespace SchemaDocs

open Html
open Html.Fragment (shown markup script)
open Text (SurrogateFree)

/-! ## Texts -/

namespace Text

theorem surrogateFree_nil : SurrogateFree [] := fun _ hc => absurd hc List.not_mem_nil

theorem surrogateFree_flatMap {α : Type} {xs : List α} {f : α → Text}
    (h : ∀ x ∈ xs, SurrogateFree (f x)) : SurrogateFree (xs.flatMap f) := by
  intro c hc
  obtain ⟨x, hx, hc⟩ := List.mem_flatMap.mp hc
  exact h x hx c hc

theorem surrogateFree_ofLines (ls : List String) : SurrogateFree (ofLines ls) :=
  surrogateFree_flatMap fun l _ => (surrogateFree_ofString l).append (surrogateFree_ofString "\n")

theorem surrogateFree_join {separator : Text} {parts : List Text}
    (hseparator : SurrogateFree separator) (hparts : ∀ t ∈ parts, SurrogateFree t) :
    SurrogateFree (join separator parts) := by
  induction parts with
  | nil => exact surrogateFree_nil
  | cons t rest ih =>
      obtain ⟨ht, hrest⟩ := List.forall_mem_cons.mp hparts
      cases rest with
      | nil => exact ht
      | cons u rest => exact (ht.append hseparator).append (ih hrest)

theorem surrogateFree_of_join {separator : Text} {parts : List Text}
    (h : SurrogateFree (join separator parts)) : ∀ t ∈ parts, SurrogateFree t := by
  induction parts with
  | nil => exact fun t ht => absurd ht List.not_mem_nil
  | cons t rest ih =>
      cases rest with
      | nil => exact List.forall_mem_singleton.mpr h
      | cons u rest =>
          obtain ⟨hfirst, hrest⟩ := List.forall_mem_append.mp h
          exact List.forall_mem_cons.mpr ⟨(List.forall_mem_append.mp hfirst).1, ih hrest⟩

theorem ne_ofChar_of_isSurrogate {c : CodePoint} (hc : c.isSurrogate = true) (d : Char) :
    c ≠ CodePoint.ofChar d := by
  rintro rfl
  rw [isSurrogate_ofChar] at hc
  cases hc

theorem surrogateFree_of_flatMap {f : CodePoint → Text} {t : Text}
    (hf : ∀ c, c.isSurrogate = true → f c = [c]) (h : SurrogateFree (t.flatMap f)) :
    SurrogateFree t := by
  intro c hc
  cases hcase : c.isSurrogate with
  | false => rfl
  | true =>
      rw [← hcase]
      refine h c (List.mem_flatMap.mpr ⟨c, hc, ?_⟩)
      rw [hf c hcase]
      exact List.mem_singleton_self c

theorem surrogateFree_replace {old : CodePoint} {new t : Text} (hnew : SurrogateFree new)
    (ht : SurrogateFree t) : SurrogateFree (t.replace old new) := by
  refine surrogateFree_flatMap fun c hc => ?_
  split
  · exact hnew
  · exact List.forall_mem_singleton.mpr (ht c hc)

theorem surrogateFree_of_replace {old : Char} {new t : Text}
    (h : SurrogateFree (t.replace old new)) : SurrogateFree t :=
  surrogateFree_of_flatMap (fun _ hc => if_neg (ne_ofChar_of_isSurrogate hc old)) h

end Text

/-! ## Sections -/

structure FieldSection.Encodable (s : FieldSection) : Prop where
  name : SurrogateFree s.field.name
  description : SurrogateFree s.description
  type : SurrogateFree s.field.type
  attributes : ∀ a ∈ s.attributes, SurrogateFree a.text

structure ModelSection.Encodable (s : ModelSection) : Prop where
  name : SurrogateFree s.model.name
  fields : ∀ t ∈ s.fields, t.Encodable

theorem FieldSection.surrogateFree_requiredText (s : FieldSection) :
    SurrogateFree s.requiredText := by
  unfold FieldSection.requiredText
  split
  · exact Text.surrogateFree_ofString _
  · exact Text.surrogateFree_ofString _

theorem FieldSection.surrogateFree_attributeLine_iff {s : FieldSection} :
    SurrogateFree s.attributeLine ↔ ∀ a ∈ s.attributes, SurrogateFree a.text := by
  have hjoin : SurrogateFree (Text.join ", " (s.attributes.map Attribute.text)) ↔
      ∀ a ∈ s.attributes, SurrogateFree a.text := by
    rw [← List.forall_mem_map]
    exact ⟨Text.surrogateFree_of_join, Text.surrogateFree_join (Text.surrogateFree_ofString _)⟩
  unfold FieldSection.attributeLine
  dsimp only
  split
  · next hempty =>
      rw [← hjoin, List.isEmpty_iff.mp hempty]
      exact iff_of_true (Text.surrogateFree_ofString _) Text.surrogateFree_nil
  · exact hjoin

theorem Field.target_eq_type {f : Field} {attributes : List Attribute}
    (h : f.attributes = .ok attributes) : ∀ a ∈ attributes, ∀ t ∈ a.target, t = f.type := by
  refine Field.forall_mem_attributes h (fun s t ht => nomatch ht) (fun l _ t ht => nomatch ht) ?_
  intro r _ t ht
  exact (Option.some.inj ht).symm

/-! ## The page -/

namespace Html

theorem surrogateFree_of_escaped {t : Text} (h : SurrogateFree (escaped t)) : SurrogateFree t := by
  refine Text.surrogateFree_of_flatMap (fun c hc => ?_) h
  have hne := Text.ne_ofChar_of_isSurrogate hc
  rw [escapedOne, if_neg (hne _), if_neg (hne _), if_neg (hne _), if_neg (hne _), if_neg (hne _)]

theorem surrogateFree_escaped {t : Text} (ht : SurrogateFree t) : SurrogateFree (escaped t) := by
  refine Text.surrogateFree_flatMap fun c hc => ?_
  unfold escapedOne
  split
  · exact Text.surrogateFree_ofString _
  split
  · exact Text.surrogateFree_ofString _
  split
  · exact Text.surrogateFree_ofString _
  split
  · exact Text.surrogateFree_ofString _
  split
  · exact Text.surrogateFree_ofString _
  · exact List.forall_mem_singleton.mpr (ht c hc)

theorem surrogateFree_of_shown_mem {t : Text} {fragments : List Fragment}
    (h : SurrogateFree (pageText fragments)) (ht : shown t ∈ fragments) : SurrogateFree t :=
  surrogateFree_of_escaped fun c hc => h c (List.mem_flatMap.mpr ⟨_, ht, hc⟩)

theorem attributeItem_subset {a : Attribute} {as : List Attribute} (ha : a ∈ as) :
    attributeItem a ⊆ attributeItems as := by
  induction as with
  | nil => exact absurd ha List.not_mem_nil
  | cons b as ih =>
      intro f hf
      cases as with
      | nil =>
          rw [List.mem_singleton.mp ha] at hf
          exact hf
      | cons c as =>
          rw [attributeItems, List.mem_append, List.mem_append]
          rcases List.mem_cons.mp ha with rfl | hrest
          · exact .inl (.inl hf)
          · exact .inr (ih hrest hf)

theorem shown_text_mem_attributeItem (a : Attribute) : shown a.text ∈ attributeItem a := by
  unfold attributeItem
  split <;> simp

theorem shown_text_mem_fieldSection {s : FieldSection} {a : Attribute} (ha : a ∈ s.attributes) :
    shown a.text ∈ fieldSection s := by
  have hcell : shown a.text ∈ attributeCell s.attributes := by
    rw [attributeCell, if_neg (by simpa using List.ne_nil_of_mem ha)]
    exact attributeItem_subset ha (shown_text_mem_attributeItem a)
  exact List.mem_append_left _ (List.mem_append_right _ hcell)

theorem modelSection_subset_page {title : Text} {sections : List ModelSection} {data : Json}
    {s : ModelSection} (hs : s ∈ sections) : modelSection s ⊆ page title sections data := by
  intro f hf
  have hmem : f ∈ sections.flatMap modelSection := List.mem_flatMap.mpr ⟨s, hs, hf⟩
  exact List.mem_append_left _ (List.mem_append_right _ hmem)

theorem fieldSection_subset_modelSection {s : ModelSection} {t : FieldSection}
    (ht : t ∈ s.fields) : fieldSection t ⊆ modelSection s := by
  intro f hf
  have hmem : f ∈ s.fields.flatMap fieldSection := List.mem_flatMap.mpr ⟨t, ht, hf⟩
  exact List.mem_append_left _ (List.mem_append_right _ hmem)

theorem encodable_of_page {title : Text} {sections : List ModelSection} {data : Json}
    (h : SurrogateFree (pageText (page title sections data))) :
    SurrogateFree title ∧ ∀ s ∈ sections, s.Encodable := by
  have hshown : ∀ {t : Text}, shown t ∈ page title sections data → SurrogateFree t :=
    surrogateFree_of_shown_mem h
  refine ⟨hshown (by simp [page]), fun s hs => ?_⟩
  have hsection : modelSection s ⊆ page title sections data := modelSection_subset_page hs
  refine ⟨hshown (hsection (by simp [modelSection])), fun t ht => ?_⟩
  have hfield : fieldSection t ⊆ page title sections data :=
    List.Subset.trans (fieldSection_subset_modelSection ht) hsection
  exact {
    name := hshown (hfield (by simp [fieldSection]))
    description := hshown (hfield (by simp [fieldSection]))
    type := hshown (hfield (by simp [fieldSection]))
    attributes := fun a ha => hshown (hfield (shown_text_mem_fieldSection ha)) }

/-! ### Fragments without surrogates -/

theorem surrogateFree_markup (s : String) : SurrogateFree (markup s).text :=
  Text.surrogateFree_ofString s

theorem surrogateFree_shown {t : Text} (ht : SurrogateFree t) : SurrogateFree (shown t).text :=
  surrogateFree_escaped ht

theorem surrogateFree_script {data : Json} (hdata : data.RealLiterals) :
    SurrogateFree (script data).text :=
  Json.surrogateFree_of_isPrintable fun _ hc =>
    Json.isPrintable_of_isPlain (isPlain_of_mem_scriptText hdata hc)

theorem surrogateFree_anchor {model : Text} {f : Field} {s : FieldSection}
    (hmodel : SurrogateFree model) (hs : FieldSection.Shows model f s) (h : s.Encodable) :
    SurrogateFree s.anchor := by
  rw [hs.anchor, ← hs.field]
  exact (hmodel.append (Text.surrogateFree_ofString _)).append h.name

theorem surrogateFree_fieldLink {s : FieldSection} (hanchor : SurrogateFree s.anchor)
    (h : s.Encodable) : ∀ f ∈ fieldLink s, SurrogateFree f.text := by
  simp only [fieldLink, List.forall_mem_cons]
  exact ⟨surrogateFree_markup _, surrogateFree_shown hanchor, surrogateFree_markup _,
    surrogateFree_shown h.name, surrogateFree_markup _, List.forall_mem_nil _⟩

theorem surrogateFree_attributeItem {a : Attribute} (ha : SurrogateFree a.text)
    (htarget : ∀ t ∈ a.target, SurrogateFree t) :
    ∀ f ∈ attributeItem a, SurrogateFree f.text := by
  unfold attributeItem
  split
  · next target htext =>
      simp only [List.forall_mem_cons]
      exact ⟨surrogateFree_markup _, surrogateFree_shown (htarget target htext),
        surrogateFree_markup _, surrogateFree_shown ha, surrogateFree_markup _,
        List.forall_mem_nil _⟩
  · simp only [List.forall_mem_cons]
    exact ⟨surrogateFree_markup _, surrogateFree_shown ha, surrogateFree_markup _,
      List.forall_mem_nil _⟩

theorem surrogateFree_attributeItems {as : List Attribute}
    (h : ∀ a ∈ as, ∀ f ∈ attributeItem a, SurrogateFree f.text) :
    ∀ f ∈ attributeItems as, SurrogateFree f.text := by
  induction as with
  | nil => exact fun f hf => absurd hf List.not_mem_nil
  | cons a as ih =>
      obtain ⟨ha, has⟩ := List.forall_mem_cons.mp h
      cases as with
      | nil => exact ha
      | cons b as =>
          rw [attributeItems, List.forall_mem_append, List.forall_mem_append,
            List.forall_mem_singleton]
          exact ⟨⟨ha, surrogateFree_markup _⟩, ih has⟩

theorem surrogateFree_attributeCell {as : List Attribute}
    (h : ∀ a ∈ as, ∀ f ∈ attributeItem a, SurrogateFree f.text) :
    ∀ f ∈ attributeCell as, SurrogateFree f.text := by
  unfold attributeCell
  split
  · exact List.forall_mem_singleton.mpr (surrogateFree_markup _)
  · exact surrogateFree_attributeItems h

theorem surrogateFree_fieldSection {model : Text} {f : Field} {s : FieldSection}
    (hmodel : SurrogateFree model) (hs : FieldSection.Shows model f s) (h : s.Encodable) :
    ∀ f ∈ fieldSection s, SurrogateFree f.text := by
  have hattributes : ∀ f ∈ attributeCell s.attributes, SurrogateFree f.text := by
    refine surrogateFree_attributeCell fun a ha =>
      surrogateFree_attributeItem (h.attributes a ha) fun t ht => ?_
    rw [Field.target_eq_type hs.attributes a ha t ht, ← hs.field]
    exact h.type
  have hrequired : SurrogateFree (markup
      (if s.field.isRequired then "required" else "optional")).text := by
    split
    · exact surrogateFree_markup _
    · exact surrogateFree_markup _
  simp only [fieldSection, List.forall_mem_append, List.forall_mem_cons]
  exact ⟨⟨⟨surrogateFree_markup _, surrogateFree_shown (surrogateFree_anchor hmodel hs h),
      surrogateFree_markup _, surrogateFree_shown h.name, surrogateFree_markup _,
      surrogateFree_shown h.description, surrogateFree_markup _, surrogateFree_shown h.type,
      surrogateFree_markup _, hrequired, surrogateFree_markup _, s.surrogateFree_requiredText,
      surrogateFree_markup _, List.forall_mem_nil _⟩, hattributes⟩,
    surrogateFree_markup _, List.forall_mem_nil _⟩

section Models

variable {m : Model} {s : ModelSection} (hs : ModelSection.Shows m s) (h : s.Encodable)

include hs h

theorem surrogateFree_modelLinks : ∀ f ∈ modelLinks s, SurrogateFree f.text := by
  have hname : SurrogateFree m.name := hs.model ▸ h.name
  have hlinks : ∀ f ∈ s.fields.flatMap fieldLink, SurrogateFree f.text := by
    intro f hf
    obtain ⟨t, ht, hf⟩ := List.mem_flatMap.mp hf
    obtain ⟨_, -, hshows⟩ := Results.exists_of_mem_right hs.fields ht
    have ht := h.fields t ht
    exact surrogateFree_fieldLink (surrogateFree_anchor hname hshows ht) ht f hf
  simp only [modelLinks, List.forall_mem_append, List.forall_mem_cons]
  rw [hs.anchor]
  exact ⟨⟨⟨surrogateFree_markup _, surrogateFree_shown hname, surrogateFree_markup _,
      surrogateFree_shown h.name, surrogateFree_markup _, List.forall_mem_nil _⟩,
    hlinks⟩, surrogateFree_markup _, List.forall_mem_nil _⟩

theorem surrogateFree_modelSection : ∀ f ∈ modelSection s, SurrogateFree f.text := by
  have hname : SurrogateFree m.name := hs.model ▸ h.name
  have hfields : ∀ f ∈ s.fields.flatMap fieldSection, SurrogateFree f.text := by
    intro f hf
    obtain ⟨t, ht, hf⟩ := List.mem_flatMap.mp hf
    obtain ⟨_, -, hshows⟩ := Results.exists_of_mem_right hs.fields ht
    exact surrogateFree_fieldSection hname hshows (h.fields t ht) f hf
  simp only [modelSection, List.forall_mem_append, List.forall_mem_cons]
  rw [hs.anchor]
  exact ⟨⟨⟨surrogateFree_markup _, surrogateFree_shown hname, surrogateFree_markup _,
      surrogateFree_shown h.name, surrogateFree_markup _, List.forall_mem_nil _⟩,
    hfields⟩, surrogateFree_markup _, List.forall_mem_nil _⟩

end Models

theorem surrogateFree_page {title : Text} {models : List Model} {sections : List ModelSection}
    {data : Json} (hsections : ModelSection.listOfModels models = .ok sections)
    (hdata : data.RealLiterals) (htitle : SurrogateFree title)
    (h : ∀ s ∈ sections, s.Encodable) :
    SurrogateFree (pageText (page title sections data)) := by
  rw [ModelSection.listOfModels_eq_ok] at hsections
  have hparts : ∀ {part : ModelSection → List Fragment},
      (∀ m s, ModelSection.Shows m s → s.Encodable → ∀ f ∈ part s, SurrogateFree f.text) →
      ∀ f ∈ sections.flatMap part, SurrogateFree f.text := by
    intro part hpart f hf
    obtain ⟨s, hs, hf⟩ := List.mem_flatMap.mp hf
    obtain ⟨m, -, hshows⟩ := Results.exists_of_mem_right hsections hs
    exact hpart m s hshows (h s hs) f hf
  have hlinks := hparts fun _ _ => surrogateFree_modelLinks
  have hbodies := hparts fun _ _ => surrogateFree_modelSection
  have hlines (ls : List String) : SurrogateFree (markup (Text.ofLines ls)).text :=
    Text.surrogateFree_ofLines ls
  refine Text.surrogateFree_flatMap ?_
  simp only [page, List.forall_mem_append, List.forall_mem_cons]
  exact ⟨⟨⟨⟨⟨hlines _, surrogateFree_markup _, surrogateFree_shown htitle, surrogateFree_markup _,
      hlines _, List.forall_mem_nil _⟩, hlinks⟩,
    surrogateFree_markup _, surrogateFree_shown htitle, surrogateFree_markup _,
      List.forall_mem_nil _⟩, hbodies⟩,
    surrogateFree_markup _, surrogateFree_script hdata, surrogateFree_markup _, hlines _,
      surrogateFree_markup _, surrogateFree_script trivial, surrogateFree_markup _, hlines _,
      List.forall_mem_nil _⟩

end Html

/-! ## The Markdown document -/

namespace Markdown

theorem surrogateFree_cell {t : Text} (ht : SurrogateFree t) : SurrogateFree (cell t) :=
  Text.surrogateFree_replace (Text.surrogateFree_ofString _) ht

theorem surrogateFree_row (label : String) {value : Text} (hvalue : SurrogateFree value) :
    SurrogateFree (row label value) :=
  (((((Text.surrogateFree_ofString _).append (Text.surrogateFree_ofString _)).append
    (Text.surrogateFree_ofString _)).append hvalue).append (Text.surrogateFree_ofString _))

theorem surrogateFree_of_row_cell {label t : Text} (h : SurrogateFree (row label (cell t))) :
    SurrogateFree t :=
  Text.surrogateFree_of_replace (List.forall_mem_append.mp (List.forall_mem_append.mp h).1).2

theorem surrogateFree_fieldEntry {s : FieldSection} (h : s.Encodable) :
    ∀ t ∈ fieldEntry s, SurrogateFree t := by
  have hrows : ∀ t ∈ ([("| Property | Value |" : Text), "|----------|-------|",
      row "Type" (cell s.field.type), row "Required" s.requiredText,
      row "Attributes" (cell s.attributeLine)] : List Text), SurrogateFree t := by
    simp only [List.forall_mem_cons]
    exact ⟨Text.surrogateFree_ofString _, Text.surrogateFree_ofString _,
      surrogateFree_row _ (surrogateFree_cell h.type),
      surrogateFree_row _ s.surrogateFree_requiredText,
      surrogateFree_row _ (surrogateFree_cell
        (FieldSection.surrogateFree_attributeLine_iff.mpr h.attributes)),
      List.forall_mem_nil _⟩
  have htable : SurrogateFree (fieldTable s) :=
    Text.surrogateFree_join (Text.surrogateFree_ofString _) hrows
  simp only [fieldEntry, List.forall_mem_cons]
  exact ⟨(Text.surrogateFree_ofString _).append h.name,
    (Text.surrogateFree_ofString _).append h.description, htable,
    List.forall_mem_nil _⟩

theorem encodable_of_fieldEntry {s : FieldSection} (h : ∀ t ∈ fieldEntry s, SurrogateFree t) :
    s.Encodable := by
  simp only [fieldEntry, List.forall_mem_cons] at h
  obtain ⟨hname, hdescription, htable, -⟩ := h
  have hrows := Text.surrogateFree_of_join htable
  simp only [List.forall_mem_cons] at hrows
  obtain ⟨-, -, htype, -, hattributes, -⟩ := hrows
  exact {
    name := (List.forall_mem_append.mp hname).2
    description := (List.forall_mem_append.mp hdescription).2
    type := surrogateFree_of_row_cell htype
    attributes :=
      FieldSection.surrogateFree_attributeLine_iff.mp (surrogateFree_of_row_cell hattributes) }

theorem surrogateFree_modelEntry_iff {s : ModelSection} :
    (∀ t ∈ modelEntry s, SurrogateFree t) ↔ s.Encodable := by
  rw [modelEntry, List.forall_mem_cons]
  constructor
  · rintro ⟨hname, hfields⟩
    refine ⟨(List.forall_mem_append.mp hname).2, fun t ht => encodable_of_fieldEntry ?_⟩
    exact fun u hu => hfields u (List.mem_flatMap.mpr ⟨t, ht, hu⟩)
  · intro h
    refine ⟨(Text.surrogateFree_ofString _).append h.name, fun u hu => ?_⟩
    obtain ⟨t, ht, hu⟩ := List.mem_flatMap.mp hu
    exact surrogateFree_fieldEntry (h.fields t ht) u hu

theorem surrogateFree_document_iff {title : Text} {sections : List ModelSection} :
    SurrogateFree (document title sections) ↔
      SurrogateFree title ∧ ∀ s ∈ sections, s.Encodable := by
  have hblocks : (∀ t ∈ ("# " ++ title) :: sections.flatMap modelEntry, SurrogateFree t) ↔
      SurrogateFree title ∧ ∀ s ∈ sections, s.Encodable := by
    rw [List.forall_mem_cons]
    simp only [← surrogateFree_modelEntry_iff]
    constructor
    · rintro ⟨htitle, hentries⟩
      exact ⟨(List.forall_mem_append.mp htitle).2, fun s hs t ht =>
        hentries t (List.mem_flatMap.mpr ⟨s, hs, ht⟩)⟩
    · rintro ⟨htitle, hentries⟩
      refine ⟨(Text.surrogateFree_ofString _).append htitle, fun t ht => ?_⟩
      obtain ⟨s, hs, ht⟩ := List.mem_flatMap.mp ht
      exact hentries s hs t ht
  rw [← hblocks]
  constructor
  · exact fun h => Text.surrogateFree_of_join (List.forall_mem_append.mp h).1
  · exact fun h => (Text.surrogateFree_join (Text.surrogateFree_ofString _) h).append
      (Text.surrogateFree_ofString _)

end Markdown

/-! ## Both documents -/

theorem surrogateFree_markdown {title : Text} {sections : List ModelSection} {data : Json}
    (h : SurrogateFree (pageText (page title sections data))) :
    SurrogateFree (Markdown.document title sections) :=
  Markdown.surrogateFree_document_iff.mpr (encodable_of_page h)

theorem surrogateFree_html {title : Text} {models : List Model} {sections : List ModelSection}
    {data : Json} (hsections : ModelSection.listOfModels models = .ok sections)
    (hdata : data.RealLiterals) (h : SurrogateFree (Markdown.document title sections)) :
    SurrogateFree (pageText (page title sections data)) :=
  have hshown := Markdown.surrogateFree_document_iff.mp h
  surrogateFree_page hsections hdata hshown.1 hshown.2

end SchemaDocs
