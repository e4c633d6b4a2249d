import SchemaDocs.Proofs.Document.Shape
import SchemaDocs.Proofs.Html.Layout
import SchemaDocs.Proofs.Html.ScriptText
import SchemaDocs.Proofs.Value.Expression
/-!
# Markup and shown text

Two pages of schemas of one shape hold the same markup.  Their fragments differ in shown texts and
in words only, and neither holds a character with a meaning in markup: shown text has entities
instead, and the data of the script has escapes.

* `alike_beforeContent`, `alike_content`: the fragments of the two pages one by one;
* `markup_render_eq`: the markup characters of the two pages.
-/

namespace SchemaDocs.Html

open Fragment (markup shown script)

/-! ## Ampersands -/

def AmpersandsEscaped (t : Text) : Prop :=
  ∀ rest, CodePoint.ofChar '&' :: rest <:+ t →
    ∃ e ∈ entities, e.1 <+: CodePoint.ofChar '&' :: rest

theorem AmpersandsEscaped.append {s t : Text} (hs : AmpersandsEscaped s)
    (ht : AmpersandsEscaped t) : AmpersandsEscaped (s ++ t) := by
  induction s with
  | nil => exact ht
  | cons c s ih =>
      intro rest hrest
      rcases List.suffix_cons_iff.mp hrest with hwhole | hrest
      · -- What begins an entity in `s` goes on to do so, whatever is put after `s`.
        cases hwhole
        obtain ⟨e, he, hprefix⟩ := hs s List.suffix_rfl
        exact ⟨e, he, hprefix.trans (List.prefix_append _ t)⟩
      · exact ih (fun rest hrest => hs rest (hrest.trans (List.suffix_cons c s))) rest hrest

theorem ampersandsEscaped_of_notMem {t : Text} (h : CodePoint.ofChar '&' ∉ t) :
    AmpersandsEscaped t :=
  fun _ hrest => absurd (hrest.subset List.mem_cons_self) h

theorem ampersandsEscaped_entity {e : Text × CodePoint} (he : e ∈ entities) :
    AmpersandsEscaped e.1 := by
  have hstart : ∀ e ∈ entities, e.1.head? = some (CodePoint.ofChar '&') ∧
      CodePoint.ofChar '&' ∉ e.1.tail := by
    decide
  obtain ⟨hhead, htail⟩ := hstart e he
  obtain ⟨tail, heq⟩ := List.head?_eq_some_iff.mp hhead
  rw [heq] at htail
  intro rest hrest
  refine ⟨e, he, ?_⟩
  rw [heq] at hrest ⊢
  rcases List.suffix_cons_iff.mp hrest with hwhole | hrest
  · cases hwhole
    exact List.prefix_rfl
  · exact absurd (hrest.subset List.mem_cons_self) htail

theorem ampersandsEscaped_escapedOne (c : CodePoint) : AmpersandsEscaped (escapedOne c) := by
  unfold escapedOne
  split
  · exact ampersandsEscaped_entity (e := ("&amp;", '&')) (by decide)
  split
  · exact ampersandsEscaped_entity (e := ("&lt;", '<')) (by decide)
  split
  · exact ampersandsEscaped_entity (e := ("&gt;", '>')) (by decide)
  split
  · exact ampersandsEscaped_entity (e := ("&#39;", '\'')) (by decide)
  split
  · exact ampersandsEscaped_entity (e := ("&#34;", '"')) (by decide)
  · next hc _ _ _ _ =>
      exact ampersandsEscaped_of_notMem fun hmem => hc (List.mem_singleton.mp hmem).symm

theorem ampersandsEscaped_escaped (t : Text) : AmpersandsEscaped (escaped t) := by
  induction t with
  | nil => exact ampersandsEscaped_of_notMem List.not_mem_nil
  | cons c rest ih => exact (ampersandsEscaped_escapedOne c).append ih

/-! ## Fragments that are alike -/

/-- A character of a word has no meaning in markup. -/
def isWord (c : CodePoint) : Bool :=
  isShown c && c != '&'

/-- Two fragments are alike if they are the same markup, two words or two shown texts. -/
inductive Alike : Fragment → Fragment → Prop
  | markup {t : Text} (ht : CodePoint.ofChar '&' ∉ t) : Alike (markup t) (markup t)
  | word {t u : Text} (ht : ∀ c ∈ t, isWord c = true) (hu : ∀ c ∈ u, isWord c = true) :
    Alike (markup t) (markup u)
  | shown (t u : Text) : Alike (shown t) (shown u)

theorem ampersand_notMem_of_isWord {t : Text} (ht : ∀ c ∈ t, isWord c = true) :
    CodePoint.ofChar '&' ∉ t :=
  fun hmem => absurd (ht _ hmem) (by decide)

theorem Alike.symm {f g : Fragment} (h : Alike f g) : Alike g f := by
  cases h with
  | markup ht => exact .markup ht
  | word ht hu => exact .word hu ht
  | shown t u => exact .shown u t

theorem Alike.ampersandsEscaped {f g : Fragment} (h : Alike f g) : AmpersandsEscaped f.text := by
  cases h with
  | markup ht => exact ampersandsEscaped_of_notMem ht
  | word ht hu => exact ampersandsEscaped_of_notMem (ampersand_notMem_of_isWord ht)
  | shown t u => exact ampersandsEscaped_escaped t

theorem ampersandsEscaped_pageText {fs gs : List Fragment} (h : List.Forall₂ Alike fs gs) :
    AmpersandsEscaped (pageText fs) := by
  induction h with
  | nil => exact ampersandsEscaped_of_notMem List.not_mem_nil
  | cons hfg _ ih =>
      rw [pageText_cons]
      exact hfg.ampersandsEscaped.append ih

section Filter

variable {p : CodePoint → Bool}

theorem filter_eq_nil_of_isShown (hp : ∀ c, isShown c = true → p c = false) {t : Text}
    (ht : ∀ c ∈ t, isShown c = true) : t.filter p = [] :=
  List.filter_eq_nil_iff.mpr fun c hc => by rw [hp c (ht c hc)]; exact Bool.false_ne_true

theorem isShown_of_isWord {t : Text} (ht : ∀ c ∈ t, isWord c = true) :
    ∀ c ∈ t, isShown c = true :=
  fun c hc => (Bool.and_eq_true_iff.mp (ht c hc)).1

theorem Alike.filter_text (hp : ∀ c, isShown c = true → p c = false) {f g : Fragment}
    (h : Alike f g) : f.text.filter p = g.text.filter p := by
  cases h with
  | markup ht => rfl
  | word ht hu =>
      exact (filter_eq_nil_of_isShown hp (isShown_of_isWord ht)).trans
        (filter_eq_nil_of_isShown hp (isShown_of_isWord hu)).symm
  | shown t u =>
      exact (filter_eq_nil_of_isShown hp fun _ => isShown_of_mem_escaped).trans
        (filter_eq_nil_of_isShown hp fun _ => isShown_of_mem_escaped).symm

theorem filter_pageText (hp : ∀ c, isShown c = true → p c = false) {fs gs : List Fragment}
    (h : List.Forall₂ Alike fs gs) : (pageText fs).filter p = (pageText gs).filter p := by
  induction h with
  | nil => rfl
  | cons hfg _ ih => rw [pageText_cons, pageText_cons, List.filter_append, List.filter_append,
      hfg.filter_text hp, ih]

end Filter

/-! ## The fragments of pages of one shape -/

section Fragments

variable {fs gs : List Fragment}

/-- Fixed markup is alike to itself.  Its characters are listed by reflexivity. -/
theorem alike_markup {s : String} {cs : List Char} (hs : s = String.ofList cs) (h : '&' ∉ cs)
    (hfs : List.Forall₂ Alike fs gs) :
    List.Forall₂ Alike (markup (Text.ofString s) :: fs) (markup (Text.ofString s) :: gs) := by
  refine .cons (.markup ?_) hfs
  rw [hs, Text.ofString, String.toList_ofList, List.mem_map_of_injective CodePoint.ofChar_injective]
  exact h

theorem alike_shown (t u : Text) (hfs : List.Forall₂ Alike fs gs) :
    List.Forall₂ Alike (shown t :: fs) (shown u :: gs) :=
  .cons (.shown t u) hfs

end Fragments

theorem alike_fieldLink (s t : FieldSection) : List.Forall₂ Alike (fieldLink s) (fieldLink t) :=
  alike_markup rfl (by decide) <| alike_shown _ _ <| alike_markup rfl (by decide) <|
    alike_shown _ _ <| alike_markup rfl (by decide) .nil

theorem alike_modelLinks {s t : ModelSection} (h : s.SameShape t) :
    List.Forall₂ Alike (modelLinks s) (modelLinks t) := by
  have hstart : List.Forall₂ Alike
      [markup "    <a href=\"#", shown s.anchor, markup "\" class=\"model-link\">",
        shown s.model.name, markup "</a>\n    <div class=\"model-fields\">\n"]
      [markup "    <a href=\"#", shown t.anchor, markup "\" class=\"model-link\">",
        shown t.model.name, markup "</a>\n    <div class=\"model-fields\">\n"] :=
    alike_markup rfl (by decide) <| alike_shown _ _ <| alike_markup rfl (by decide) <|
      alike_shown _ _ <| alike_markup rfl (by decide) .nil
  have hlinks := List.rel_flatMap h fun u v _ => alike_fieldLink u v
  have hend : List.Forall₂ Alike [markup "    </div>\n"] [markup "    </div>\n"] :=
    alike_markup rfl (by decide) .nil
  exact List.rel_append (List.rel_append hstart hlinks) hend

theorem alike_attributeItem {a b : Attribute} (h : a.SameKind b) :
    List.Forall₂ Alike (attributeItem a) (attributeItem b) := by
  unfold Attribute.SameKind at h
  unfold attributeItem
  cases ha : a.target with
  | none =>
      cases hb : b.target with
      | none =>
          exact alike_markup rfl (by decide) <| alike_shown _ _ <|
            alike_markup rfl (by decide) .nil
      | some target =>
          rw [ha, hb] at h
          cases h
  | some target =>
      cases hb : b.target with
      | none =>
          rw [ha, hb] at h
          cases h
      | some target' =>
          exact alike_markup rfl (by decide) <| alike_shown _ _ <|
            alike_markup rfl (by decide) <| alike_shown _ _ <| alike_markup rfl (by decide) .nil

theorem alike_attributeItems {as bs : List Attribute}
    (h : List.Forall₂ Attribute.SameKind as bs) :
    List.Forall₂ Alike (attributeItems as) (attributeItems bs) := by
  induction h with
  | nil => exact .nil
  | cons hab hrest ih =>
      cases hrest with
      | nil => exact alike_attributeItem hab
      | cons _ _ =>
          have hseparator : List.Forall₂ Alike [markup ", "] [markup ", "] :=
            alike_markup rfl (by decide) .nil
          exact List.rel_append (List.rel_append (alike_attributeItem hab) hseparator) ih

theorem alike_attributeCell {as bs : List Attribute} (h : List.Forall₂ Attribute.SameKind as bs) :
    List.Forall₂ Alike (attributeCell as) (attributeCell bs) := by
  have hitems := alike_attributeItems h
  cases h with
  | nil => exact alike_markup rfl (by decide) .nil
  | cons _ _ => exact hitems

theorem isWord_requirement (s : FieldSection) :
    (∀ c ∈ (if s.field.isRequired then "required" else "optional" : Text), isWord c = true) ∧
      ∀ c ∈ s.requiredText, isWord c = true := by
  unfold FieldSection.requiredText
  cases s.field.isRequired with
  | false => decide
  | true => decide

theorem alike_fieldSection {s t : FieldSection} (h : s.SameShape t) :
    List.Forall₂ Alike (fieldSection s) (fieldSection t) := by
  obtain ⟨hclass, hrequired⟩ := isWord_requirement s
  obtain ⟨hclass', hrequired'⟩ := isWord_requirement t
  refine List.rel_append (List.rel_append ?_ (alike_attributeCell h))
    (alike_markup rfl (by decide) .nil)
  exact alike_markup rfl (by decide) <| alike_shown _ _ <| alike_markup rfl (by decide) <|
    alike_shown _ _ <| alike_markup rfl (by decide) <| alike_shown _ _ <|
    alike_markup rfl (by decide) <| alike_shown _ _ <| alike_markup rfl (by decide) <|
    .cons (.word hclass hclass') <| alike_markup rfl (by decide) <|
    .cons (.word hrequired hrequired') <| alike_markup rfl (by decide) .nil

theorem alike_modelSection {s t : ModelSection} (h : s.SameShape t) :
    List.Forall₂ Alike (modelSection s) (modelSection t) := by
  have hstart : List.Forall₂ Alike
      [markup "    <div class=\"model model-spacing\" id=\"", shown s.anchor,
        markup "\">\n        <div class=\"model-name\">", shown s.model.name, markup "</div>\n"]
      [markup "    <div class=\"model model-spacing\" id=\"", shown t.anchor,
        markup "\">\n        <div class=\"model-name\">", shown t.model.name, markup "</div>\n"] :=
    alike_markup rfl (by decide) <| alike_shown _ _ <| alike_markup rfl (by decide) <|
      alike_shown _ _ <| alike_markup rfl (by decide) .nil
  have hfields := List.rel_flatMap h fun u v huv => alike_fieldSection huv
  have hend : List.Forall₂ Alike [markup "    </div>\n"] [markup "    </div>\n"] :=
    alike_markup rfl (by decide) .nil
  exact List.rel_append (List.rel_append hstart hfields) hend

theorem ampersand_notMem_headStart : CodePoint.ofChar '&' ∉ headStart := by
  unfold headStart Text.ofLines Text.ofString
  simp only [List.flatMap_cons, List.flatMap_nil]
  repeat rw [String.toList_ofList]
  decide +kernel

theorem ampersand_notMem_headEnd : CodePoint.ofChar '&' ∉ headEnd := by
  unfold headEnd Text.ofLines Text.ofString
  simp only [List.flatMap_cons, List.flatMap_nil]
  repeat rw [String.toList_ofList]
  decide +kernel

/-! ## Texts with the same markup -/

def SameMarkup (t u : Text) : Prop :=
  ∃ fs gs, t = pageText fs ∧ u = pageText gs ∧ List.Forall₂ Alike fs gs

namespace SameMarkup

theorem of_alike {fs gs : List Fragment} (h : List.Forall₂ Alike fs gs) :
    SameMarkup (pageText fs) (pageText gs) :=
  ⟨fs, gs, rfl, rfl, h⟩

theorem append {t t' u u' : Text} (ht : SameMarkup t t') (hu : SameMarkup u u') :
    SameMarkup (t ++ u) (t' ++ u') := by
  obtain ⟨fs, gs, rfl, rfl, hfs⟩ := ht
  obtain ⟨fs', gs', rfl, rfl, hgs⟩ := hu
  exact ⟨fs ++ fs', gs ++ gs', (pageText_append _ _).symm, (pageText_append _ _).symm,
    List.rel_append hfs hgs⟩

theorem symm {t u : Text} (h : SameMarkup t u) : SameMarkup u t := by
  obtain ⟨fs, gs, rfl, rfl, hfs⟩ := h
  exact of_alike (hfs.flip.imp fun _ _ => Alike.symm)

theorem filter_eq {t u : Text} (h : SameMarkup t u) {p : CodePoint → Bool}
    (hp : ∀ c, isShown c = true → p c = false) : t.filter p = u.filter p := by
  obtain ⟨fs, gs, rfl, rfl, hfs⟩ := h
  exact filter_pageText hp hfs

theorem ampersandsEscaped {t u : Text} (h : SameMarkup t u) : AmpersandsEscaped t := by
  obtain ⟨fs, gs, rfl, rfl, hfs⟩ := h
  exact ampersandsEscaped_pageText hfs

end SameMarkup

theorem sameMarkup_beforeContent (title title' : Text) {sections sections' : List ModelSection}
    (h : List.Forall₂ ModelSection.SameShape sections sections') :
    SameMarkup (beforeContent title sections) (beforeContent title' sections') := by
  have hhead : List.Forall₂ Alike
      [markup headStart, markup "    <title>", shown title, markup "</title>\n", markup headEnd]
      [markup headStart, markup "    <title>", shown title', markup "</title>\n", markup headEnd] :=
    .cons (.markup ampersand_notMem_headStart) <| alike_markup rfl (by decide) <|
      alike_shown _ _ <| alike_markup rfl (by decide) <|
      .cons (.markup ampersand_notMem_headEnd) .nil
  have hlinks := List.rel_flatMap h fun s t hst => alike_modelLinks hst
  have hend : List.Forall₂ Alike [markup "</div>\n"] [markup "</div>\n"] :=
    alike_markup rfl (by decide) .nil
  exact .of_alike (List.rel_append (List.rel_append hhead hlinks) hend)

theorem sameMarkup_content (title title' : Text) {sections sections' : List ModelSection}
    (h : List.Forall₂ ModelSection.SameShape sections sections') :
    SameMarkup (content title sections) (content title' sections') := by
  have hstart : List.Forall₂ Alike [markup "\n    <h1>", shown title, markup "</h1>\n"]
      [markup "\n    <h1>", shown title', markup "</h1>\n"] :=
    alike_markup rfl (by decide) <| alike_shown _ _ <| alike_markup rfl (by decide) .nil
  have hmodels := List.rel_flatMap h fun s t hst => alike_modelSection hst
  have hend : List.Forall₂ Alike [markup "</div>\n"] [markup "</div>\n"] :=
    alike_markup rfl (by decide) .nil
  exact .of_alike (List.rel_append (List.rel_append hstart hmodels) hend)

theorem sameMarkup_beforeScript (title title' : Text) {sections sections' : List ModelSection}
    (h : List.Forall₂ ModelSection.SameShape sections sections') :
    SameMarkup (beforeScript title sections) (beforeScript title' sections') := by
  have htag : SameMarkup (pageText [markup contentTag]) (pageText [markup contentTag]) :=
    .of_alike (alike_markup rfl (by decide) .nil)
  rw [pageText_cons, pageText_nil, List.append_nil] at htag
  exact (sameMarkup_beforeContent title title' h).append
    (htag.append (sameMarkup_content title title' h))

/-! ## The markup of a page -/

def isAngle (c : CodePoint) : Bool :=
  c == '<' || c == '>'

def isQuote (c : CodePoint) : Bool :=
  c == '"' || c == '\''

theorem isAngle_of_isShown {c : CodePoint} (hc : isShown c = true) : isAngle c = false := by
  simp only [isShown, Bool.and_eq_true, bne_iff_ne] at hc
  simp [isAngle, hc]

theorem isQuote_of_isShown {c : CodePoint} (hc : isShown c = true) : isQuote c = false := by
  simp only [isShown, Bool.and_eq_true, bne_iff_ne] at hc
  simp [isQuote, hc]

theorem isAngle_of_isPlain {c : CodePoint} (hc : Json.isPlain c = true) : isAngle c = false := by
  simp [isAngle, Json.ne_of_isPlain hc (d := '<') rfl, Json.ne_of_isPlain hc (d := '>') rfl]

theorem filter_afterScriptTag {data data' : Json} (hdata : data.RealLiterals)
    (hdata' : data'.RealLiterals) :
    (afterScriptTag data).filter isAngle = (afterScriptTag data').filter isAngle := by
  have hscript : ∀ {j : Json}, j.RealLiterals → (scriptText j).filter isAngle = [] := by
    intro j hj
    refine List.filter_eq_nil_iff.mpr fun c hc => ?_
    rw [isAngle_of_isPlain (isPlain_of_mem_scriptText hj hc)]
    exact Bool.false_ne_true
  simp only [afterScriptTag, pageText_cons, Fragment.text, List.filter_append, hscript hdata,
    hscript hdata']

/-- Shown texts and values have no part in the markup.  Two pages of schemas of one shape have the
same angle brackets in the same order; before the script they have the same quotes in the same
order, and every ampersand there begins an entity. -/
theorem markup_render_eq {title title' page page' : Text} {models models' : List Model}
    (hshape : List.Forall₂ Model.SameShape models models') (h : render title models = .ok page)
    (h' : render title' models' = .ok page') :
    page.filter isAngle = page'.filter isAngle ∧
      ∃ before after before' after', Text.cut? scriptTag page = some (before, after) ∧
        Text.cut? scriptTag page' = some (before', after') ∧
        before.filter isQuote = before'.filter isQuote ∧
        AmpersandsEscaped before ∧ AmpersandsEscaped before' := by
  obtain ⟨sections, record, data, hsections, -, hdata, rfl⟩ := exists_record_of_render h
  obtain ⟨sections', record', data', hsections', -, hdata', rfl⟩ := exists_record_of_render h'
  have hsame := sameMarkup_beforeScript title title'
    (ModelSection.sameShape_of_listOfModels hsections hsections' hshape)
  refine ⟨?_, _, _, _, _, cut?_scriptTag_page title sections data,
    cut?_scriptTag_page title' sections' data', hsame.filter_eq fun _ => isQuote_of_isShown,
    hsame.ampersandsEscaped, hsame.symm.ampersandsEscaped⟩
  have hbefore := hsame.filter_eq fun _ => isAngle_of_isShown
  have hafter := filter_afterScriptTag (Value.realLiterals_of_toJson? _ hdata)
    (Value.realLiterals_of_toJson? _ hdata')
  simp only [pageText_page_eq, List.filter_append, hbefore, hafter]

def plainModel : Model where
  name := "M"
  fields := [{
    name := "f", type := "T", isRequired := true, default := .int 1
    relation := some "@relation(T)" }]

/-- A model of the same shape, with tags, entities and quotes for words. -/
def hostileModel : Model where
  name := "<script>'"
  fields := [{
    name := "&amp;\"", type := "</td>", default := .text "\", <span class='attribute'>"
    relation := some "@relation(</td>)" }]

theorem markup_render_eq_hostile :
    ∃ page page', render "D" [plainModel] = .ok page ∧
      render "</title>&" [hostileModel] = .ok page' ∧
      page.filter isAngle = page'.filter isAngle ∧
      ∃ before after before' after', Text.cut? scriptTag page = some (before, after) ∧
        Text.cut? scriptTag page' = some (before', after') ∧
        before.filter isQuote = before'.filter isQuote ∧
        AmpersandsEscaped before ∧ AmpersandsEscaped before' := by
  have hfields : plainModel.SameShape hostileModel :=
    .cons ⟨rfl, rfl, iff_of_false nofun nofun, rfl, iff_of_false nofun nofun⟩ .nil
  exact ⟨_, _, rfl, rfl, markup_render_eq (.cons hfields .nil) rfl rfl⟩

end SchemaDocs.Html
