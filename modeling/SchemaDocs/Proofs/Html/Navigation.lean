import SchemaDocs.Proofs.Document.Sections
import SchemaDocs.Proofs.Html.Layout
import SchemaDocs.Proofs.Html.ScriptText
import SchemaDocs.Proofs.Value.Expression
/-!
# Navigation

The links before the content of a page lead to its sections: their targets are the identifiers of
the sections, in the same order, and they are the anchors of the models and fields.  Shown text
cannot look like a link or a section, since no tag begins in it.

* `Yields`: what a part of a page adds to the values that are collected, whatever follows it;
* `targets_render_eq`: the targets of the links and the identifiers of the sections.
-/

namespace SchemaDocs.Html

open Fragment (markup shown script)

/-! ## Values in tags -/

/-- What stands after a tag and before the next double quote, for each place where one of some tags
begins. -/
def valuesAfter (tags : List Text) : Text → List Text
  | [] => []
  | c :: rest =>
    match tags.findSome? fun tag => Text.dropStart? tag (c :: rest) with
    | some after => (after.takeWhile fun d => d != '"') :: valuesAfter tags rest
    | none => valuesAfter tags rest

def linkTag : Text := "<a href=\"#"

def sectionTags : List Text :=
  ["<div class=\"model model-spacing\" id=\"", "<div class=\"table-container\" id=\""]

/-- Whether a text adds given values to those of any text after it. -/
def Yields (tags : List Text) (t : Text) (values : List Text) : Prop :=
  ∀ rest, valuesAfter tags (t ++ rest) = values ++ valuesAfter tags rest

/-- Whether a tag is the one of some tags that is found where it begins, and no other tag can begin
inside it. -/
structure IsFirst (tags : List Text) (tag : Text) : Prop where
  found : ∀ t, (tags.findSome? fun other => Text.dropStart? other (tag ++ t)) = some t
  head : tag.head? = some (CodePoint.ofChar '<')
  tail : CodePoint.ofChar '<' ∉ tag.tail

theorem takeWhile_escaped_quote (t rest : Text) :
    ((escaped t ++ CodePoint.ofChar '"' :: rest).takeWhile fun c : CodePoint =>
      c != CodePoint.ofChar '"') = escaped t := by
  have hshown : ∀ c ∈ escaped t, (c != CodePoint.ofChar '"') = true := by
    intro c hc
    have hshown := isShown_of_mem_escaped hc
    simp only [isShown, Bool.and_eq_true] at hshown
    exact hshown.1.2
  rw [List.takeWhile_append_of_pos hshown, List.takeWhile_cons_of_neg (by simp), List.append_nil]

section Yields

variable {tags : List Text} {fs gs : List Fragment} {vs ws : List Text}

theorem valuesAfter_of_yields {t : Text} (h : Yields tags t vs) : valuesAfter tags t = vs := by
  have hnil := h []
  rwa [valuesAfter, List.append_nil, List.append_nil] at hnil

theorem Yields.append {s t : Text} (hs : Yields tags s vs) (ht : Yields tags t ws) :
    Yields tags (s ++ t) (vs ++ ws) := by
  intro rest
  rw [List.append_assoc, hs, ht, List.append_assoc]

theorem yields_nil : Yields tags [] [] :=
  fun _ => rfl

theorem yields_of_avoids {t : Text} (h : ∀ tag ∈ tags, Text.avoids tag t) : Yields tags t [] := by
  induction t with
  | nil => exact yields_nil
  | cons c t ih =>
      intro rest
      have hnone : (tags.findSome? fun tag => Text.dropStart? tag (c :: (t ++ rest))) = none := by
        refine List.findSome?_eq_none_iff.mpr fun tag htag => ?_
        have havoids := h tag htag
        rw [Text.avoids, Bool.and_eq_true] at havoids
        exact Text.dropStart?_of_differs (Text.differs_append havoids.1 rest)
      have hrest := ih fun tag htag => (Bool.and_eq_true_iff.mp (h tag htag)).2
      rw [List.cons_append, valuesAfter, hnone]
      exact hrest rest

theorem yields_flatMap {α : Type} {f : α → List Fragment} {g : α → List Text}
    (h : ∀ x, Yields tags (pageText (f x)) (g x)) (xs : List α) :
    Yields tags (pageText (xs.flatMap f)) (xs.flatMap g) := by
  induction xs with
  | nil => exact yields_nil
  | cons x xs ih =>
      rw [List.flatMap_cons, List.flatMap_cons, pageText_append]
      exact (h x).append ih

theorem yields_pageText_append (hfs : Yields tags (pageText fs) vs)
    (hgs : Yields tags (pageText gs) ws) : Yields tags (pageText (fs ++ gs)) (vs ++ ws) := by
  rw [pageText_append]
  exact hfs.append hgs

theorem yields_markup {t : Text} (h : ∀ tag ∈ tags, Text.avoids tag t)
    (hfs : Yields tags (pageText fs) vs) : Yields tags (pageText (markup t :: fs)) vs := by
  rw [pageText_cons]
  exact (yields_of_avoids h).append hfs

variable (htags : ∀ tag ∈ tags, tag.head? = some (CodePoint.ofChar '<'))
include htags

theorem yields_of_notMem {t : Text} (ht : CodePoint.ofChar '<' ∉ t) : Yields tags t [] :=
  yields_of_avoids fun tag htag => Text.avoids_of_notMem (htags tag htag) ht

theorem yields_escaped (t : Text) : Yields tags (escaped t) [] :=
  yields_of_notMem htags (lt_notMem_escaped t)

theorem yields_shown (t : Text) (hfs : Yields tags (pageText fs) vs) :
    Yields tags (pageText (shown t :: fs)) vs := by
  rw [pageText_cons]
  exact (yields_escaped htags t).append hfs

theorem yields_value {tag : Text} (htag : IsFirst tags tag) (t : Text) :
    Yields tags (tag ++ (escaped t ++ [CodePoint.ofChar '"'])) [escaped t] := by
  obtain ⟨tail, rfl⟩ := List.head?_eq_some_iff.mp htag.head
  -- The scan goes on right behind the bracket of the tag, and finds no other tag before the quote.
  have hquote : Yields tags [CodePoint.ofChar '"'] [] := yields_of_notMem htags (by decide)
  have hskipped : Yields tags (tail ++ (escaped t ++ [CodePoint.ofChar '"'])) [] :=
    (yields_of_notMem htags htag.tail).append ((yields_escaped htags t).append hquote)
  intro rest
  have hfound := htag.found (escaped t ++ CodePoint.ofChar '"' :: rest)
  have hrest := hskipped rest
  simp only [List.append_assoc, List.cons_append, List.nil_append] at hfound hrest ⊢
  rw [valuesAfter, hfound, hrest]
  dsimp only
  rw [takeWhile_escaped_quote]

theorem yields_slot {tag start stop : Text} (htag : IsFirst tags tag) (before after : Text)
    (hstart : start = before ++ tag) (hstop : stop = CodePoint.ofChar '"' :: after)
    (hbefore : CodePoint.ofChar '<' ∉ before) (t : Text)
    (hfs : Yields tags (pageText (markup after :: fs)) vs) :
    Yields tags (pageText (markup start :: shown t :: markup stop :: fs)) (escaped t :: vs) := by
  have htext : pageText (markup start :: shown t :: markup stop :: fs) =
      before ++ (tag ++ (escaped t ++ [CodePoint.ofChar '"']) ++
        pageText (markup after :: fs)) := by
    simp only [pageText_cons, Fragment.text, hstart, hstop, List.append_assoc, List.cons_append,
      List.nil_append]
  rw [htext]
  exact (yields_of_notMem htags hbefore).append ((yields_value htags htag t).append hfs)

end Yields

/-! ## Anchors -/

def anchors (sections : List ModelSection) : List Text :=
  sections.flatMap fun s => s.anchor :: s.fields.map FieldSection.anchor

theorem map_escaped_anchors (sections : List ModelSection) :
    (anchors sections).map escaped =
      sections.flatMap fun s => escaped s.anchor :: s.fields.map fun t => escaped t.anchor := by
  simp only [anchors, List.map_flatMap, List.map_cons, List.map_map, Function.comp_def]

/-! ## Links -/

theorem head_linkTag : ∀ tag ∈ [linkTag], tag.head? = some (CodePoint.ofChar '<') := by
  decide

theorem isFirst_linkTag : IsFirst [linkTag] linkTag where
  found t := by simp [Text.dropStart?_append]
  head := by decide
  tail := by decide

theorem yields_linkFree {s : String} {ps cs : List Char} {fs : List Fragment} {vs : List Text}
    (hp : "<a href=\"#" = String.ofList ps) (hs : s = String.ofList cs)
    (h : Text.avoids (ps.map CodePoint.ofChar) (cs.map CodePoint.ofChar))
    (hfs : Yields [linkTag] (pageText fs) vs) :
    Yields [linkTag] (pageText (markup (Text.ofString s) :: fs)) vs :=
  yields_markup (List.forall_mem_singleton.mpr (Text.avoids_ofString hp hs h)) hfs

theorem yields_fieldLink (s : FieldSection) :
    Yields [linkTag] (pageText (fieldLink s)) [escaped s.anchor] :=
  yields_slot head_linkTag isFirst_linkTag "        " " class=\"field-link\">" rfl rfl
    (by decide) s.anchor <|
  yields_linkFree rfl rfl (by decide) <|
  yields_shown head_linkTag _ <| yields_linkFree rfl rfl (by decide) yields_nil

theorem yields_modelLinks (s : ModelSection) :
    Yields [linkTag] (pageText (modelLinks s))
      (escaped s.anchor :: s.fields.map fun t => escaped t.anchor) := by
  have hstart : Yields [linkTag] (pageText [markup "    <a href=\"#", shown s.anchor,
      markup "\" class=\"model-link\">", shown s.model.name,
      markup "</a>\n    <div class=\"model-fields\">\n"]) [escaped s.anchor] :=
    yields_slot head_linkTag isFirst_linkTag "    " " class=\"model-link\">" rfl rfl
      (by decide) s.anchor <|
    yields_linkFree rfl rfl (by decide) <|
    yields_shown head_linkTag _ <| yields_linkFree rfl rfl (by decide) yields_nil
  have hlinks := yields_flatMap yields_fieldLink s.fields
  have hend : Yields [linkTag] (pageText [markup "    </div>\n"]) [] :=
    yields_linkFree rfl rfl (by decide) yields_nil
  have hall := yields_pageText_append (yields_pageText_append hstart hlinks) hend
  rw [← List.map_eq_flatMap, List.append_nil] at hall
  exact hall

theorem avoids_linkTag_headStart : ∀ tag ∈ [linkTag], Text.avoids tag headStart := by
  unfold headStart Text.ofLines Text.ofString
  simp only [List.flatMap_cons, List.flatMap_nil]
  repeat rw [String.toList_ofList]
  decide +kernel

theorem avoids_linkTag_headEnd : ∀ tag ∈ [linkTag], Text.avoids tag headEnd := by
  unfold headEnd Text.ofLines Text.ofString
  simp only [List.flatMap_cons, List.flatMap_nil]
  repeat rw [String.toList_ofList]
  decide +kernel

theorem yields_beforeContent (title : Text) (sections : List ModelSection) :
    Yields [linkTag] (beforeContent title sections) ((anchors sections).map escaped) := by
  have hhead : Yields [linkTag] (pageText [markup headStart, markup "    <title>", shown title,
      markup "</title>\n", markup headEnd]) [] :=
    yields_markup avoids_linkTag_headStart <| yields_linkFree rfl rfl (by decide) <|
    yields_shown head_linkTag _ <| yields_linkFree rfl rfl (by decide) <|
    yields_markup avoids_linkTag_headEnd yields_nil
  have hlinks := yields_flatMap yields_modelLinks sections
  have hend : Yields [linkTag] (pageText [markup "</div>\n"]) [] :=
    yields_linkFree rfl rfl (by decide) yields_nil
  have hall := yields_pageText_append (yields_pageText_append hhead hlinks) hend
  rw [List.append_nil, List.nil_append, ← map_escaped_anchors] at hall
  exact hall

/-! ## Sections -/

theorem head_sectionTags : ∀ tag ∈ sectionTags, tag.head? = some (CodePoint.ofChar '<') := by
  decide

theorem isFirst_modelTag : IsFirst sectionTags "<div class=\"model model-spacing\" id=\"" where
  found t := by
    rw [sectionTags, List.findSome?_cons, Text.dropStart?_append]
  head := by decide
  tail := by decide

theorem isFirst_fieldTag : IsFirst sectionTags "<div class=\"table-container\" id=\"" where
  found t := by
    rw [sectionTags, List.findSome?_cons,
      Text.dropStart?_of_differs (Text.differs_append (by decide) t), List.findSome?_cons,
      Text.dropStart?_append]
  head := by decide
  tail := by decide

theorem yields_sectionFree {s : String} {ps qs cs : List Char} {fs : List Fragment}
    {vs : List Text} (hp : "<div class=\"model model-spacing\" id=\"" = String.ofList ps)
    (hq : "<div class=\"table-container\" id=\"" = String.ofList qs) (hs : s = String.ofList cs)
    (h : Text.avoids (ps.map CodePoint.ofChar) (cs.map CodePoint.ofChar) ∧
      Text.avoids (qs.map CodePoint.ofChar) (cs.map CodePoint.ofChar))
    (hfs : Yields sectionTags (pageText fs) vs) :
    Yields sectionTags (pageText (markup (Text.ofString s) :: fs)) vs :=
  yields_markup (List.forall_mem_cons.mpr ⟨Text.avoids_ofString hp hs h.1,
    List.forall_mem_singleton.mpr (Text.avoids_ofString hq hs h.2)⟩) hfs

theorem yields_attributeItem (a : Attribute) :
    Yields sectionTags (pageText (attributeItem a)) [] := by
  unfold attributeItem
  split
  · exact yields_sectionFree rfl rfl rfl (by decide) <| yields_shown head_sectionTags _ <|
      yields_sectionFree rfl rfl rfl (by decide) <| yields_shown head_sectionTags _ <|
      yields_sectionFree rfl rfl rfl (by decide) yields_nil
  · exact yields_sectionFree rfl rfl rfl (by decide) <| yields_shown head_sectionTags _ <|
      yields_sectionFree rfl rfl rfl (by decide) yields_nil

theorem yields_attributeCell (as : List Attribute) :
    Yields sectionTags (pageText (attributeCell as)) [] := by
  cases as with
  | nil => exact yields_sectionFree rfl rfl rfl (by decide) yields_nil
  | cons a as =>
      have hnext (b : Attribute) :
          Yields sectionTags (pageText (markup ", " :: attributeItem b)) [] :=
        yields_sectionFree rfl rfl rfl (by decide) (yields_attributeItem b)
      have hall := yields_pageText_append (yields_attributeItem a) (yields_flatMap hnext as)
      have hnil : (as.flatMap fun _ => ([] : List Text)) = [] :=
        List.flatMap_eq_nil_iff.mpr fun _ _ => rfl
      rw [attributeCell, if_neg (by simp), attributeItems_cons]
      rwa [hnil, List.append_nil] at hall

theorem avoids_sectionTags_requirement (s : FieldSection) :
    (∀ tag ∈ sectionTags, Text.avoids tag
      (if s.field.isRequired then "required" else "optional" : Text)) ∧
      ∀ tag ∈ sectionTags, Text.avoids tag s.requiredText := by
  have havoids : ∀ {t : Text}, CodePoint.ofChar '<' ∉ t →
      ∀ tag ∈ sectionTags, Text.avoids tag t :=
    fun ht tag htag => Text.avoids_of_notMem (head_sectionTags tag htag) ht
  unfold FieldSection.requiredText
  cases s.field.isRequired with
  | false => exact ⟨havoids (by decide), havoids (by decide)⟩
  | true => exact ⟨havoids (by decide), havoids (by decide)⟩

theorem yields_fieldSection (s : FieldSection) :
    Yields sectionTags (pageText (fieldSection s)) [escaped s.anchor] := by
  obtain ⟨hclass, hrequired⟩ := avoids_sectionTags_requirement s
  change Yields sectionTags (pageText (fieldSection s)) ([escaped s.anchor] ++ [] ++ [])
  refine yields_pageText_append (yields_pageText_append ?_ (yields_attributeCell _))
    (yields_sectionFree rfl rfl rfl (by decide) yields_nil)
  exact yields_slot head_sectionTags isFirst_fieldTag "        " ">\n            <h2>" rfl rfl
      (by decide) s.anchor <|
    yields_sectionFree rfl rfl rfl (by decide) <|
    yields_shown head_sectionTags _ <| yields_sectionFree rfl rfl rfl (by decide) <|
    yields_shown head_sectionTags _ <| yields_sectionFree rfl rfl rfl (by decide) <|
    yields_shown head_sectionTags _ <| yields_sectionFree rfl rfl rfl (by decide) <|
    yields_markup hclass <| yields_sectionFree rfl rfl rfl (by decide) <|
    yields_markup hrequired <| yields_sectionFree rfl rfl rfl (by decide) yields_nil

theorem yields_modelSection (s : ModelSection) :
    Yields sectionTags (pageText (modelSection s))
      (escaped s.anchor :: s.fields.map fun t => escaped t.anchor) := by
  have hstart : Yields sectionTags (pageText [markup "    <div class=\"model model-spacing\" id=\"",
      shown s.anchor, markup "\">\n        <div class=\"model-name\">", shown s.model.name,
      markup "</div>\n"]) [escaped s.anchor] :=
    yields_slot head_sectionTags isFirst_modelTag "    " ">\n        <div class=\"model-name\">"
      rfl rfl (by decide) s.anchor <|
    yields_sectionFree rfl rfl rfl (by decide) <|
    yields_shown head_sectionTags _ <| yields_sectionFree rfl rfl rfl (by decide) yields_nil
  have hfields := yields_flatMap yields_fieldSection s.fields
  have hend : Yields sectionTags (pageText [markup "    </div>\n"]) [] :=
    yields_sectionFree rfl rfl rfl (by decide) yields_nil
  have hall := yields_pageText_append (yields_pageText_append hstart hfields) hend
  rw [← List.map_eq_flatMap, List.append_nil] at hall
  exact hall

theorem yields_content (title : Text) (sections : List ModelSection) :
    Yields sectionTags (content title sections) ((anchors sections).map escaped) := by
  have hstart : Yields sectionTags
      (pageText [markup "\n    <h1>", shown title, markup "</h1>\n"]) [] :=
    yields_sectionFree rfl rfl rfl (by decide) <| yields_shown head_sectionTags _ <|
    yields_sectionFree rfl rfl rfl (by decide) yields_nil
  have hmodels := yields_flatMap yields_modelSection sections
  have hend : Yields sectionTags (pageText [markup "</div>\n"]) [] :=
    yields_sectionFree rfl rfl rfl (by decide) yields_nil
  have hall := yields_pageText_append (yields_pageText_append hstart hmodels) hend
  rw [List.append_nil, List.nil_append, ← map_escaped_anchors] at hall
  exact hall

theorem avoids_sectionTags_exportScript : ∀ tag ∈ sectionTags, Text.avoids tag exportScript := by
  unfold exportScript Text.ofLines Text.ofString
  simp only [List.flatMap_cons, List.flatMap_nil]
  repeat rw [String.toList_ofList]
  decide +kernel

theorem avoids_sectionTags_pageEnd : ∀ tag ∈ sectionTags, Text.avoids tag pageEnd := by
  unfold pageEnd Text.ofLines Text.ofString
  simp only [List.flatMap_cons, List.flatMap_nil]
  repeat rw [String.toList_ofList]
  decide +kernel

theorem yields_script {data : Json} (hdata : data.RealLiterals) {fs : List Fragment}
    (hfs : Yields sectionTags (pageText fs) []) :
    Yields sectionTags (pageText (script data :: fs)) [] := by
  rw [pageText_cons]
  exact (yields_of_notMem head_sectionTags (lt_notMem_scriptText hdata)).append hfs

theorem yields_afterScriptTag {data : Json} (hdata : data.RealLiterals) :
    Yields sectionTags (afterScriptTag data) [] := by
  have hname : Json.RealLiterals (.string exportFileName) := trivial
  exact yields_sectionFree rfl rfl rfl (by decide) <| yields_script hdata <|
    yields_sectionFree rfl rfl rfl (by decide) <|
    yields_markup avoids_sectionTags_exportScript <|
    yields_sectionFree rfl rfl rfl (by decide) <| yields_script hname <|
    yields_sectionFree rfl rfl rfl (by decide) <|
    yields_markup avoids_sectionTags_pageEnd yields_nil

theorem valuesAfter_afterContentTag (title : Text) (sections : List ModelSection) {data : Json}
    (hdata : data.RealLiterals) :
    valuesAfter sectionTags (content title sections ++ (scriptTag ++ afterScriptTag data)) =
      (anchors sections).map escaped := by
  have htag : Yields sectionTags scriptTag [] := yields_of_avoids (by decide)
  have hall := (yields_content title sections).append (htag.append (yields_afterScriptTag hdata))
  rw [List.append_nil, List.append_nil] at hall
  exact valuesAfter_of_yields hall

/-! ## The targets of the links -/

theorem anchors_eq {models : List Model} {sections : List ModelSection}
    (h : ModelSection.listOfModels models = .ok sections) :
    anchors sections =
      models.flatMap fun m => m.name :: m.fields.map fun f => m.name ++ "-" ++ f.name := by
  rw [ModelSection.listOfModels_eq_ok] at h
  unfold anchors
  induction h with
  | nil => rfl
  | cons hmodel _ ih =>
      rw [List.flatMap_cons, List.flatMap_cons, hmodel.anchor,
        FieldSection.map_anchor hmodel.fields, ih]

/-- The navigation is complete.  The targets of the links before the content of a page are the
identifiers of the sections after it, in the same order, and they stand for the names of the models,
each followed by those of its fields with the name of the model. -/
theorem targets_render_eq {title page : Text} {models : List Model}
    (h : render title models = .ok page) :
    ∃ before after, Text.cut? contentTag page = some (before, after) ∧
      valuesAfter [linkTag] before = valuesAfter sectionTags after ∧
      (valuesAfter [linkTag] before).map unescaped =
        models.flatMap fun m => m.name :: m.fields.map fun f => m.name ++ "-" ++ f.name := by
  obtain ⟨sections, record, data, hsections, -, hdata, rfl⟩ := exists_record_of_render h
  have hlinks := valuesAfter_of_yields (yields_beforeContent title sections)
  have hids := valuesAfter_afterContentTag title sections (Value.realLiterals_of_toJson? _ hdata)
  refine ⟨_, _, cut?_contentTag_page title sections data, hlinks.trans hids.symm, ?_⟩
  have hinverse : unescaped ∘ escaped = id := funext unescaped_escaped
  rw [hlinks, List.map_map, hinverse, List.map_id, anchors_eq hsections]

/-- Two models of one name, one without fields and one with a field that is named like a link. -/
def twinModels : List Model := [
  { name := "<a href=\"#x\">" },
  { name := "<a href=\"#x\">", fields := [
    { name := "\"><div class=\"content\">", type := "T" }, { name := "&amp;", type := "T" },
    { name := "&amp;", type := "T", relation := some "@relation(T)" }] }]

theorem targets_render_eq_twins :
    ∃ page, render "<div class=\"content\">" twinModels = .ok page ∧
      ∃ before after, Text.cut? contentTag page = some (before, after) ∧
        valuesAfter [linkTag] before = valuesAfter sectionTags after ∧
        (valuesAfter [linkTag] before).map unescaped =
          twinModels.flatMap fun m => m.name :: m.fields.map fun f => m.name ++ "-" ++ f.name :=
  ⟨_, rfl, targets_render_eq rfl⟩

end SchemaDocs.Html
