import SchemaDocs.Proofs.Html.Markup
import SchemaDocs.Proofs.Html.Navigation
import SchemaDocs.Proofs.Html.Tags
/-!
# Anchors

The identifiers of a page are the anchors of its models and fields.  A model name without a dash is
what an anchor has before its first dash, so models of different names have no anchor in common, and
each link finds one section at most.
-/

namespace SchemaDocs.Html

open Fragment (markup shown script)

/-! ## Anchors of different sections -/

def anchorsOf (models : List Model) : List Text :=
  models.flatMap fun m => m.name :: m.fields.map fun f => m.name ++ "-" ++ f.name

def owner (t : Text) : Text :=
  t.takeWhile fun c => c != '-'

theorem owner_append {s : Text} (hs : CodePoint.ofChar '-' ∉ s) (t : Text) :
    owner (s ++ "-" ++ t) = s := by
  have hname : ∀ c ∈ s, (c != CodePoint.ofChar '-') = true := by
    intro c hc
    rw [bne_iff_ne]
    exact fun heq => hs (heq ▸ hc)
  have hdash : ("-" ++ t : Text) = CodePoint.ofChar '-' :: t := rfl
  rw [owner, List.append_assoc, hdash, List.takeWhile_append_of_pos hname,
    List.takeWhile_cons_of_neg (by simp), List.append_nil]

theorem owner_of_notMem {s : Text} (hs : CodePoint.ofChar '-' ∉ s) : owner s = s := by
  refine List.takeWhile_eq_self_iff.mpr fun c hc => ?_
  rw [bne_iff_ne]
  exact fun heq => hs (heq ▸ hc)

section Distinct

variable {models : List Model} (hdash : ∀ m ∈ models, CodePoint.ofChar '-' ∉ m.name)
include hdash

theorem owner_of_mem {m : Model} (hm : m ∈ models) {t : Text}
    (ht : t ∈ m.name :: m.fields.map fun f => m.name ++ "-" ++ f.name) : owner t = m.name := by
  rcases List.mem_cons.mp ht with rfl | hmem
  · exact owner_of_notMem (hdash m hm)
  · obtain ⟨f, -, rfl⟩ := List.mem_map.mp hmem
    exact owner_append (hdash m hm) f.name

theorem mem_anchorsOf_iff {t : Text} (ht : CodePoint.ofChar '-' ∉ t) :
    t ∈ anchorsOf models ↔ t ∈ models.map Model.name := by
  rw [anchorsOf, List.mem_flatMap, List.mem_map]
  constructor
  · rintro ⟨m, hm, hmem⟩
    refine ⟨m, hm, ?_⟩
    rw [← owner_of_mem hdash hm hmem, owner_of_notMem ht]
  · rintro ⟨m, hm, rfl⟩
    exact ⟨m, hm, List.mem_cons_self⟩

theorem nodup_anchorsOf (hnames : (models.map Model.name).Nodup)
    (hfields : ∀ m ∈ models, (m.fields.map Field.name).Nodup) : (anchorsOf models).Nodup := by
  rw [anchorsOf, List.nodup_flatMap]
  constructor
  · intro m hm
    rw [List.nodup_cons]
    constructor
    · intro hmem
      obtain ⟨f, -, heq⟩ := List.mem_map.mp hmem
      exact hdash m hm (heq ▸ List.mem_append_left _ (List.mem_append_right _ (by decide)))
    · have hinjective : Function.Injective fun t : Text => m.name ++ "-" ++ t :=
        fun _ _ => List.append_cancel_left
      have hmap := (hfields m hm).map hinjective
      rwa [List.map_map] at hmap
  · rw [List.Nodup, List.pairwise_map] at hnames
    refine hnames.imp_of_mem fun hm hn hne t htm htn => hne ?_
    rw [← owner_of_mem hdash hm htm, owner_of_mem hdash hn htn]

end Distinct

/-! ## The marks of a page -/

def idMark (t : Text) : Text × Text :=
  ("id=", escaped t)

def linkMark (t : Text) : Text × Text :=
  ("href=", "#" ++ escaped t)

def linkTo (t : Text) : Text :=
  "#" ++ t

theorem isShown_shown (t : Text) : ∀ c ∈ (shown t).text, isShown c = true :=
  fun _ hc => isShown_of_mem_escaped hc

def targets (as : List Attribute) : List Text :=
  as.flatMap fun a => a.target.toList

def fieldMarks (s : FieldSection) : List (Text × Text) :=
  idMark s.anchor :: (targets s.attributes).map linkMark

def modelMarks (s : ModelSection) : List (Text × Text) :=
  idMark s.anchor :: s.fields.flatMap fieldMarks

theorem adds_fieldLink (s : FieldSection) :
    Adds (pageText (fieldLink s)) [linkMark s.anchor] :=
  adds_slot "        " "a href=" "#" " class=\"field-link\"" "" (by decide) rfl rfl
    (isShown_shown _) rfl <|
  adds_markup rfl (by decide) <| adds_shown _ <| adds_markup rfl (by decide) adds_nil

theorem adds_modelLinks (s : ModelSection) :
    Adds (pageText (modelLinks s))
      (linkMark s.anchor :: s.fields.map fun t => linkMark t.anchor) := by
  have hstart : Adds (pageText [markup "    <a href=\"#", shown s.anchor,
      markup "\" class=\"model-link\">", shown s.model.name,
      markup "</a>\n    <div class=\"model-fields\">\n"]) [linkMark s.anchor] :=
    adds_slot "    " "a href=" "#" " class=\"model-link\"" "" (by decide) rfl rfl
      (isShown_shown _) rfl <|
    adds_markup rfl (by decide) <| adds_shown _ <| adds_markup rfl (by decide) adds_nil
  have hlinks := adds_flatMap adds_fieldLink s.fields
  have hend : Adds (pageText [markup "    </div>\n"]) [] := adds_markup rfl (by decide) adds_nil
  have hall := adds_pageText_append (adds_pageText_append hstart hlinks) hend
  rw [← List.map_eq_flatMap, List.append_nil] at hall
  exact hall

theorem adds_attributeItem (a : Attribute) :
    Adds (pageText (attributeItem a)) (a.target.toList.map linkMark) := by
  unfold attributeItem
  split
  · next target htarget =>
      rw [htarget]
      exact adds_slot "" "a class=\"relation\" href=" "#" "" "" (by decide) rfl rfl
          (isShown_shown _) rfl <|
        adds_markup rfl (by decide) <| adds_shown _ <| adds_markup rfl (by decide) adds_nil
  · next hnone =>
      rw [hnone]
      exact adds_markup rfl (by decide) <| adds_shown _ <| adds_markup rfl (by decide) adds_nil

theorem adds_attributeCell (as : List Attribute) :
    Adds (pageText (attributeCell as)) ((targets as).map linkMark) := by
  cases as with
  | nil => exact adds_markup rfl (by decide) adds_nil
  | cons a as =>
      have hnext (b : Attribute) :
          Adds (pageText (markup ", " :: attributeItem b)) (b.target.toList.map linkMark) :=
        adds_markup rfl (by decide) (adds_attributeItem b)
      rw [attributeCell, if_neg (by simp), attributeItems_cons, targets, List.flatMap_cons,
        List.map_append, List.map_flatMap]
      exact adds_pageText_append (adds_attributeItem a) (adds_flatMap hnext as)

theorem adds_word {t : Text} {fs : List Fragment} {ms : List (Text × Text)}
    (ht : ∀ c ∈ t, isWord c = true) (hfs : Adds (pageText fs) ms) :
    Adds (pageText (markup t :: fs)) ms := by
  rw [pageText_cons]
  refine (adds_of_notMem fun hmem => ?_).append hfs
  exact absurd (isShown_of_isWord ht _ hmem) (by decide)

/-- The row on whether a field is required: its class is no identifier. -/
theorem adds_requirement (s : FieldSection) :
    Adds (pageText [markup "</td></tr>\n                <tr><th>Required</th><td class=\"",
      markup (if s.field.isRequired then "required" else "optional"), markup "\">",
      markup s.requiredText, markup "</td></tr>\n                <tr><th>Attributes</th><td>"])
      [] := by
  obtain ⟨hclass, hrequired⟩ := isWord_requirement s
  have hend : Adds (pageText [markup "", markup s.requiredText,
      markup "</td></tr>\n                <tr><th>Attributes</th><td>"]) [] :=
    adds_markup rfl (by decide) <| adds_word hrequired <| adds_markup rfl (by decide) adds_nil
  show Adds _ ([] ++ [])
  exact adds_slot (f := markup _) "</td></tr>\n                <tr><th>Required</th>" "td class=" ""
    "" "" (by decide) rfl rfl (isShown_of_isWord hclass) rfl hend

theorem adds_fieldSection (s : FieldSection) :
    Adds (pageText (fieldSection s)) (fieldMarks s) := by
  have hstart : Adds (pageText [markup "        <div class=\"table-container\" id=\"",
      shown s.anchor, markup "\">\n            <h2>", shown s.field.name,
      markup "</h2>\n            <p class=\"description\">", shown s.description,
      markup "</p>\n            <table>\n                <tr><th>Type</th><td>",
      shown s.field.type]) [idMark s.anchor] :=
    adds_slot "        " "div class=\"table-container\" id=" "" "" "\n            <h2>" (by decide)
      rfl rfl (isShown_shown _) rfl <|
    adds_markup rfl (by decide) <| adds_shown _ <| adds_markup rfl (by decide) <| adds_shown _ <|
    adds_markup rfl (by decide) <| adds_shown _ adds_nil
  have hend : Adds (pageText [markup "</td></tr>\n            </table>\n        </div>\n"]) [] :=
    adds_markup rfl (by decide) adds_nil
  have hall := adds_pageText_append (adds_pageText_append
    (adds_pageText_append hstart (adds_requirement s)) (adds_attributeCell s.attributes)) hend
  rw [List.append_nil, List.append_nil] at hall
  exact hall

theorem adds_modelSection (s : ModelSection) :
    Adds (pageText (modelSection s)) (modelMarks s) := by
  have hstart : Adds (pageText [markup "    <div class=\"model model-spacing\" id=\"",
      shown s.anchor, markup "\">\n        <div class=\"model-name\">", shown s.model.name,
      markup "</div>\n"]) [idMark s.anchor] :=
    adds_slot "    " "div class=\"model model-spacing\" id=" "" ""
      "\n        <div class=\"model-name\">" (by decide) rfl rfl (isShown_shown _) rfl <|
    adds_markup rfl (by decide) <| adds_shown _ <| adds_markup rfl (by decide) adds_nil
  have hfields := adds_flatMap adds_fieldSection s.fields
  have hend : Adds (pageText [markup "    </div>\n"]) [] := adds_markup rfl (by decide) adds_nil
  have hall := adds_pageText_append (adds_pageText_append hstart hfields) hend
  rw [List.append_nil] at hall
  exact hall

theorem isNeutral_headStart : isNeutral headStart := by
  unfold headStart Text.ofLines Text.ofString
  simp only [List.flatMap_cons, List.flatMap_nil]
  repeat rw [String.toList_ofList]
  decide +kernel

theorem isNeutral_headEnd : isNeutral headEnd := by
  unfold headEnd Text.ofLines Text.ofString
  simp only [List.flatMap_cons, List.flatMap_nil]
  repeat rw [String.toList_ofList]
  decide +kernel

theorem isNeutral_exportScript : isNeutral exportScript := by
  unfold exportScript Text.ofLines Text.ofString
  simp only [List.flatMap_cons, List.flatMap_nil]
  repeat rw [String.toList_ofList]
  decide +kernel

theorem isNeutral_pageEnd : isNeutral pageEnd := by
  unfold pageEnd Text.ofLines Text.ofString
  simp only [List.flatMap_cons, List.flatMap_nil]
  repeat rw [String.toList_ofList]
  decide +kernel

theorem adds_beforeContent (title : Text) (sections : List ModelSection) :
    Adds (beforeContent title sections) ((anchors sections).map linkMark) := by
  have hhead : Adds (pageText [markup headStart, markup "    <title>", shown title,
      markup "</title>\n", markup headEnd]) [] :=
    adds_neutral isNeutral_headStart <| adds_markup rfl (by decide) <| adds_shown _ <|
    adds_markup rfl (by decide) <| adds_neutral isNeutral_headEnd adds_nil
  have hlinks := adds_flatMap adds_modelLinks sections
  have hend : Adds (pageText [markup "</div>\n"]) [] := adds_markup rfl (by decide) adds_nil
  have hall := adds_pageText_append (adds_pageText_append hhead hlinks) hend
  rw [List.append_nil, List.nil_append] at hall
  have hmarks : (anchors sections).map linkMark =
      sections.flatMap fun s => linkMark s.anchor :: s.fields.map fun t => linkMark t.anchor := by
    simp only [anchors, List.map_flatMap, List.map_cons, List.map_map, Function.comp_def]
  rw [hmarks]
  exact hall

theorem adds_content (title : Text) (sections : List ModelSection) :
    Adds (content title sections) (sections.flatMap modelMarks) := by
  have hstart : Adds (pageText [markup "\n    <h1>", shown title, markup "</h1>\n"]) [] :=
    adds_markup rfl (by decide) <| adds_shown _ <| adds_markup rfl (by decide) adds_nil
  have hmodels := adds_flatMap adds_modelSection sections
  have hend : Adds (pageText [markup "</div>\n"]) [] := adds_markup rfl (by decide) adds_nil
  have hall := adds_pageText_append (adds_pageText_append hstart hmodels) hend
  rwa [List.append_nil, List.nil_append] at hall

theorem adds_script {data : Json} (hdata : data.RealLiterals) {fs : List Fragment}
    {ms : List (Text × Text)} (hfs : Adds (pageText fs) ms) :
    Adds (pageText (script data :: fs)) ms := by
  rw [pageText_cons]
  exact (adds_of_notMem (lt_notMem_scriptText hdata)).append hfs

theorem adds_afterScriptTag {data : Json} (hdata : data.RealLiterals) :
    Adds (afterScriptTag data) [] := by
  have hname : Json.RealLiterals (.string exportFileName) := trivial
  exact adds_markup rfl (by decide) <| adds_script hdata <| adds_markup rfl (by decide) <|
    adds_neutral isNeutral_exportScript <| adds_markup rfl (by decide) <| adds_script hname <|
    adds_markup rfl (by decide) <| adds_neutral isNeutral_pageEnd adds_nil

/-! ## Identifiers and links of a page -/

theorem marks_afterContentTag (title : Text) (sections : List ModelSection) {data : Json}
    (hdata : data.RealLiterals) :
    marks (content title sections ++ (scriptTag ++ afterScriptTag data)) =
      sections.flatMap modelMarks := by
  have hscript : Adds scriptTag [] := adds_of_isNeutral (by decide)
  have hall := (adds_content title sections).append (hscript.append (adds_afterScriptTag hdata))
  rw [List.append_nil, List.append_nil] at hall
  exact marks_of_adds hall

theorem marks_page (title : Text) (sections : List ModelSection) {data : Json}
    (hdata : data.RealLiterals) :
    marks (pageText (page title sections data)) =
      (anchors sections).map linkMark ++ sections.flatMap modelMarks := by
  have hcontent : Adds contentTag [] := adds_of_isNeutral (by decide)
  rw [pageText_page, adds_beforeContent title sections, hcontent, List.nil_append,
    marks_afterContentTag title sections hdata]

theorem valuesIn_id_idMark (t : Text) : valuesIn "id" [idMark t] = [t] := by
  have hone : valuesIn "id" [idMark t] = [unescaped (escaped t)] := rfl
  rw [hone, unescaped_escaped]

theorem valuesIn_href_linkMark (t : Text) : valuesIn "href" [linkMark t] = [linkTo t] := by
  have hone : valuesIn "href" [linkMark t] = [unescaped (escaped (linkTo t))] := rfl
  rw [hone, unescaped_escaped]

theorem valuesIn_id_links (ts : List Text) : valuesIn "id" (ts.map linkMark) = [] := by
  have hone : ∀ t, valuesIn "id" [linkMark t] = [] := fun _ => rfl
  rw [List.map_eq_flatMap, valuesIn_flatMap]
  simp only [hone, List.flatMap_eq_nil_iff, implies_true]

theorem valuesIn_href_links (ts : List Text) :
    valuesIn "href" (ts.map linkMark) = ts.map linkTo := by
  rw [List.map_eq_flatMap, valuesIn_flatMap, List.map_eq_flatMap]
  simp only [valuesIn_href_linkMark]

theorem valuesIn_id_fieldMarks (s : FieldSection) : valuesIn "id" (fieldMarks s) = [s.anchor] := by
  have hsplit : fieldMarks s = [idMark s.anchor] ++ (targets s.attributes).map linkMark := rfl
  rw [hsplit, valuesIn_append, valuesIn_id_idMark, valuesIn_id_links, List.append_nil]

theorem valuesIn_href_fieldMarks (s : FieldSection) :
    valuesIn "href" (fieldMarks s) = (targets s.attributes).map linkTo :=
  valuesIn_href_links (targets s.attributes)

theorem valuesIn_id_modelMarks (s : ModelSection) :
    valuesIn "id" (modelMarks s) = s.anchor :: s.fields.map FieldSection.anchor := by
  have hsplit : modelMarks s = [idMark s.anchor] ++ s.fields.flatMap fieldMarks := rfl
  rw [hsplit, valuesIn_append, valuesIn_id_idMark, valuesIn_flatMap, List.map_eq_flatMap]
  simp only [valuesIn_id_fieldMarks, List.singleton_append]

theorem valuesIn_href_modelMarks (s : ModelSection) :
    valuesIn "href" (modelMarks s) =
      (s.fields.flatMap fun f => targets f.attributes).map linkTo := by
  have hsplit : valuesIn "href" (modelMarks s) = valuesIn "href" (s.fields.flatMap fieldMarks) :=
    rfl
  rw [hsplit, valuesIn_flatMap, List.map_flatMap]
  simp only [valuesIn_href_fieldMarks]

theorem isMark_id (v : Text) : isMark ("id" ++ "=", v) = true := rfl

theorem isMark_href (v : Text) : isMark ("href" ++ "=", v) = true := rfl

/-! ## Models -/

def targetsOf (f : Field) : List Text :=
  match f.attributes with
  | .ok attributes => targets attributes
  | .error _ => []

theorem flatMap_targets {models : List Model} {sections : List ModelSection}
    (h : List.Forall₂ ModelSection.Shows models sections) :
    (sections.flatMap fun s => s.fields.flatMap fun f => targets f.attributes) =
      models.flatMap fun m => m.fields.flatMap targetsOf := by
  refine (Results.flatMap_eq_of_forall₂ h fun m s hshows => ?_).symm
  refine Results.flatMap_eq_of_forall₂ hshows.fields fun f t hfield => ?_
  rw [targetsOf, hfield.attributes]

theorem identifiers_page {title : Text} {models : List Model} {sections : List ModelSection}
    (h : ModelSection.listOfModels models = .ok sections) {data : Json}
    (hdata : data.RealLiterals) :
    valuesOf "id" (pageText (page title sections data)) = anchorsOf models := by
  rw [valuesOf_eq isMark_id, marks_page title sections hdata, valuesIn_append, valuesIn_id_links,
    List.nil_append, valuesIn_flatMap, anchorsOf, ← anchors_eq h, anchors]
  simp only [valuesIn_id_modelMarks]

/-- No two sections of a page have one identifier, provided that the names of the models differ and
have no dash, and that the names of the fields of each model differ.  So each link of the navigation
leads to one element, and the link of a relation to a type without a dash leads to the one element
of the model that is so named, or nowhere. -/
theorem nodup_identifiers_render {title page : Text} {models : List Model}
    (h : render title models = .ok page) (hnames : (models.map Model.name).Nodup)
    (hdash : ∀ m ∈ models, CodePoint.ofChar '-' ∉ m.name)
    (hfields : ∀ m ∈ models, (m.fields.map Field.name).Nodup) :
    (valuesOf "id" page).Nodup ∧
      (∃ before after, Text.cut? contentTag page = some (before, after) ∧
        valuesOf "href" page = valuesOf "href" before ++ valuesOf "href" after ∧
        (∀ link ∈ valuesOf "href" before,
          ∃ t, link = linkTo t ∧ (valuesOf "id" page).count t = 1) ∧
        valuesOf "href" after =
          (models.flatMap fun m => m.fields.flatMap targetsOf).map linkTo) ∧
      ∀ m ∈ models, ∀ f ∈ m.fields, ∀ type ∈ targetsOf f, CodePoint.ofChar '-' ∉ type →
        (valuesOf "id" page).count type = if type ∈ models.map Model.name then 1 else 0 := by
  obtain ⟨sections, record, data, hsections, -, hdata, rfl⟩ := exists_record_of_render h
  have hreal := Value.realLiterals_of_toJson? _ hdata
  have hnodup := nodup_anchorsOf hdash hnames hfields
  have hbefore : valuesOf "href" (beforeContent title sections) =
      (anchorsOf models).map linkTo := by
    rw [valuesOf_eq isMark_href, marks_of_adds (adds_beforeContent title sections),
      valuesIn_href_links, anchorsOf, ← anchors_eq hsections]
  have hafter : valuesOf "href" (content title sections ++ (scriptTag ++ afterScriptTag data)) =
      (models.flatMap fun m => m.fields.flatMap targetsOf).map linkTo := by
    rw [valuesOf_eq isMark_href, marks_afterContentTag title sections hreal, valuesIn_flatMap,
      ← flatMap_targets (ModelSection.listOfModels_eq_ok.mp hsections), List.map_flatMap]
    simp only [valuesIn_href_modelMarks]
  rw [identifiers_page hsections hreal]
  refine ⟨hnodup, ⟨_, _, cut?_contentTag_page title sections data, ?_, ?_, hafter⟩, ?_⟩
  · rw [valuesOf_eq isMark_href, valuesOf_eq isMark_href, valuesOf_eq isMark_href,
      marks_page title sections hreal, marks_of_adds (adds_beforeContent title sections),
      marks_afterContentTag title sections hreal, valuesIn_append]
  · rw [hbefore]
    intro link hlink
    obtain ⟨t, ht, rfl⟩ := List.mem_map.mp hlink
    exact ⟨t, rfl, List.count_eq_one_of_mem hnodup ht⟩
  · intro m hm f hf type htype hplain
    rw [hnodup.count]
    simp only [mem_anchorsOf_iff hdash hplain]

/-- A model with a relation to the model before it, in a field that is named like an identifier, and
with a relation to no model. -/
def relatedModel : Model where
  name := "Post"
  fields := [
    { name := "\" id=\"User", type := "User", relation := some "@relation(User)" },
    { name := "-", type := "Ghost", relation := some "@relation(Ghost)" }]

def relatedModels : List Model :=
  [{ name := "User", fields := [{ name := "-", type := "T" }, { name := "--", type := "T" }] },
    relatedModel]

theorem nodup_identifiers_render_related :
    ∃ page, render "A page" relatedModels = .ok page ∧ (valuesOf "id" page).Nodup ∧
      (valuesOf "id" page).count (Text.ofString "User") = 1 ∧
      (valuesOf "id" page).count (Text.ofString "Ghost") = 0 := by
  obtain ⟨page, hpage⟩ : ∃ page, render "A page" relatedModels = .ok page := ⟨_, rfl⟩
  obtain ⟨hnodup, -, htargets⟩ :=
    nodup_identifiers_render hpage (by decide) (by decide) (by decide)
  have hrelated := htargets relatedModel (List.mem_cons_of_mem _ List.mem_cons_self)
  exact ⟨page, hpage, hnodup, hrelated _ List.mem_cons_self "User" List.mem_cons_self (by decide),
    hrelated _ (List.mem_cons_of_mem _ List.mem_cons_self) "Ghost" List.mem_cons_self (by decide)⟩

end SchemaDocs.Html
