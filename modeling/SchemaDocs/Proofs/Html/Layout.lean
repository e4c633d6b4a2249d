import SchemaDocs.Html.Page
import SchemaDocs.Proofs.Html.Entities
import SchemaDocs.Proofs.Results
import SchemaDocs.Proofs.Text.Literal
/-!
# The parts of the page

A page is made of what stands before its content, the tag that opens the content, the content, the
tag that opens the script, and the rest.  Neither tag occurs anywhere else, whatever the texts shown
are: in shown text no tag begins.
-/

namespace SchemaDocs.Html

open Fragment (markup shown script)

/-! ## Texts of fragments -/

@[simp] theorem pageText_nil : pageText [] = [] := rfl

@[simp] theorem pageText_cons (f : Fragment) (fs : List Fragment) :
    pageText (f :: fs) = f.text ++ pageText fs := List.flatMap_cons

@[simp] theorem pageText_append (fs gs : List Fragment) :
    pageText (fs ++ gs) = pageText fs ++ pageText gs := List.flatMap_append

theorem pageText_flatMap {α : Type} (xs : List α) (f : α → List Fragment) :
    pageText (xs.flatMap f) = xs.flatMap fun x => pageText (f x) := List.flatMap_assoc

/-! ## The parts -/

def contentTag : Text := "<div class=\"content\">"

def scriptTag : Text := "<script>"

/-- The page before its content: the head and the navigation links. -/
def beforeContent (title : Text) (sections : List ModelSection) : Text :=
  pageText ([markup headStart, markup "    <title>", shown title, markup "</title>\n",
    markup headEnd] ++ sections.flatMap modelLinks ++ [markup "</div>\n"])

/-- What stands between the tag of the content and the tag of the script. -/
def content (title : Text) (sections : List ModelSection) : Text :=
  pageText ([markup "\n    <h1>", shown title, markup "</h1>\n"] ++
    sections.flatMap modelSection ++ [markup "</div>\n"])

def afterScriptTag (record : Json) : Text :=
  pageText [markup "\n    const schemaDocument = ", script record, markup ";\n",
    markup exportScript, markup "        link.download = ", script (.string exportFileName),
    markup ";\n", markup pageEnd]

theorem pageText_page (title : Text) (sections : List ModelSection) (record : Json) :
    pageText (page title sections record) =
      beforeContent title sections ++
        (contentTag ++ (content title sections ++ (scriptTag ++ afterScriptTag record))) := by
  have hcontent : Text.ofString "</div>\n<div class=\"content\">\n    <h1>" =
      Text.ofString "</div>\n" ++ (contentTag ++ Text.ofString "\n    <h1>") := by
    unfold contentTag
    rw [← Text.ofString_append, ← Text.ofString_append]
    rfl
  have hscript : Text.ofString "</div>\n<script>\n    const schemaDocument = " =
      Text.ofString "</div>\n" ++ (scriptTag ++ Text.ofString "\n    const schemaDocument = ") := by
    unfold scriptTag
    rw [← Text.ofString_append, ← Text.ofString_append]
    rfl
  simp only [page, beforeContent, content, afterScriptTag, pageText_append, pageText_cons,
    pageText_nil, Fragment.text, hcontent, hscript, List.append_assoc, List.append_nil]

theorem exists_record_of_render {title t : Text} {models : List Model}
    (h : render title models = .ok t) :
    ∃ sections record data, ModelSection.listOfModels models = .ok sections ∧
      exportRecord title sections = .ok record ∧ record.toJson? = .ok data ∧
      t = pageText (page title sections data) := by
  obtain ⟨sections, hsections, hdocument⟩ := Results.bind_eq_ok.mp h
  split at hdocument
  · next hpage =>
      cases hdocument
      obtain ⟨record, hrecord, hpage⟩ := Results.bind_eq_ok.mp hpage
      obtain ⟨data, hdata, hpage⟩ := Results.bind_eq_ok.mp hpage
      cases hpage
      exact ⟨sections, record, data, hsections, hrecord, hdata, rfl⟩
  · cases hdocument

theorem render_of_record {title : Text} {models : List Model} {sections : List ModelSection}
    {record : Value} {data : Json} (hsections : ModelSection.listOfModels models = .ok sections)
    (hrecord : exportRecord title sections = .ok record) (hdata : record.toJson? = .ok data) :
    render title models = .ok (pageText (page title sections data)) := by
  have hdocument : document title sections = .ok (pageText (page title sections data)) :=
    Results.bind_eq_ok.mpr ⟨record, hrecord, Results.bind_eq_ok.mpr ⟨data, hdata, rfl⟩⟩
  refine Results.bind_eq_ok.mpr ⟨sections, hsections, ?_⟩
  rw [hdocument]
  rfl

theorem render_eq_ok {title t : Text} {models : List Model} (h : render title models = .ok t) :
    ∃ sections record, ModelSection.listOfModels models = .ok sections ∧
      t = pageText (page title sections record) := by
  obtain ⟨sections, -, data, hsections, -, -, ht⟩ := exists_record_of_render h
  exact ⟨sections, data, hsections, ht⟩

/-! ## Where the tags occur -/

/-- Whether neither tag begins in a text, whatever follows it. -/
def tagFree (t : Text) : Bool :=
  Text.avoids contentTag t && Text.avoids scriptTag t

theorem tagFree_append {s t : Text} (hs : tagFree s) (ht : tagFree t) : tagFree (s ++ t) := by
  simp only [tagFree, Bool.and_eq_true] at hs ht ⊢
  exact ⟨Text.avoids_append hs.1 ht.1, Text.avoids_append hs.2 ht.2⟩

theorem tagFree_ofString {s : String} {cs : List Char} (hs : s = String.ofList cs)
    (h : tagFree (cs.map CodePoint.ofChar)) : tagFree (Text.ofString s) := by
  rw [hs, Text.ofString, String.toList_ofList]
  exact h

theorem tagFree_escaped (t : Text) : tagFree (escaped t) := by
  rw [tagFree, Bool.and_eq_true]
  constructor
  · exact Text.avoids_of_notMem rfl (lt_notMem_escaped t)
  · exact Text.avoids_of_notMem rfl (lt_notMem_escaped t)

theorem tagFree_pageText_append {fs gs : List Fragment} (hfs : tagFree (pageText fs))
    (hgs : tagFree (pageText gs)) : tagFree (pageText (fs ++ gs)) := by
  rw [pageText_append]
  exact tagFree_append hfs hgs

theorem tagFree_pageText_cons {f : Fragment} {fs : List Fragment} (hf : tagFree f.text)
    (hfs : tagFree (pageText fs)) : tagFree (pageText (f :: fs)) := by
  rw [pageText_cons]
  exact tagFree_append hf hfs

theorem tagFree_markup {s : String} {cs : List Char} {fs : List Fragment}
    (hs : s = String.ofList cs) (h : tagFree (cs.map CodePoint.ofChar))
    (hfs : tagFree (pageText fs)) : tagFree (pageText (markup (Text.ofString s) :: fs)) :=
  tagFree_pageText_cons (tagFree_ofString hs h) hfs

theorem tagFree_shown (t : Text) {fs : List Fragment} (hfs : tagFree (pageText fs)) :
    tagFree (pageText (shown t :: fs)) :=
  tagFree_pageText_cons (tagFree_escaped t) hfs

theorem tagFree_pageText_flatMap {α : Type} {f : α → List Fragment}
    (h : ∀ x, tagFree (pageText (f x))) (xs : List α) : tagFree (pageText (xs.flatMap f)) := by
  induction xs with
  | nil => rfl
  | cons x xs ih =>
      rw [List.flatMap_cons]
      exact tagFree_pageText_append (h x) ih

theorem tagFree_headStart : tagFree headStart := by
  unfold headStart Text.ofLines Text.ofString
  simp only [List.flatMap_cons, List.flatMap_nil]
  repeat rw [String.toList_ofList]
  decide +kernel

theorem tagFree_headEnd : tagFree headEnd := by
  unfold headEnd Text.ofLines Text.ofString
  simp only [List.flatMap_cons, List.flatMap_nil]
  repeat rw [String.toList_ofList]
  decide +kernel

theorem tagFree_exportScript : tagFree exportScript := by
  unfold exportScript Text.ofLines Text.ofString
  simp only [List.flatMap_cons, List.flatMap_nil]
  repeat rw [String.toList_ofList]
  decide +kernel

theorem tagFree_pageEnd : tagFree pageEnd := by
  unfold pageEnd Text.ofLines Text.ofString
  simp only [List.flatMap_cons, List.flatMap_nil]
  repeat rw [String.toList_ofList]
  decide +kernel

theorem tagFree_fieldLink (s : FieldSection) : tagFree (pageText (fieldLink s)) :=
  tagFree_markup rfl (by decide) <| tagFree_shown _ <|
  tagFree_markup rfl (by decide) <| tagFree_shown _ <|
  tagFree_markup rfl (by decide) rfl

theorem tagFree_modelLinks (s : ModelSection) : tagFree (pageText (modelLinks s)) := by
  have hstart : tagFree (pageText [markup "    <a href=\"#", shown s.anchor,
      markup "\" class=\"model-link\">", shown s.model.name,
      markup "</a>\n    <div class=\"model-fields\">\n"]) :=
    tagFree_markup rfl (by decide) <| tagFree_shown _ <|
    tagFree_markup rfl (by decide) <| tagFree_shown _ <|
    tagFree_markup rfl (by decide) rfl
  have hlinks := tagFree_pageText_flatMap tagFree_fieldLink s.fields
  have hend : tagFree (pageText [markup "    </div>\n"]) :=
    tagFree_markup rfl (by decide) rfl
  exact tagFree_pageText_append (tagFree_pageText_append hstart hlinks) hend

theorem tagFree_attributeItem (a : Attribute) : tagFree (pageText (attributeItem a)) := by
  unfold attributeItem
  split
  · exact tagFree_markup rfl (by decide) <| tagFree_shown _ <|
      tagFree_markup rfl (by decide) <| tagFree_shown _ <|
      tagFree_markup rfl (by decide) rfl
  · exact tagFree_markup rfl (by decide) <| tagFree_shown _ <|
      tagFree_markup rfl (by decide) rfl

theorem attributeItems_cons (a : Attribute) (as : List Attribute) :
    attributeItems (a :: as) =
      attributeItem a ++ as.flatMap fun b => markup ", " :: attributeItem b := by
  induction as generalizing a with
  | nil => rw [attributeItems, List.flatMap_nil, List.append_nil]
  | cons b as ih =>
      rw [attributeItems, ih b, List.flatMap_cons]
      simp

theorem tagFree_attributeCell (as : List Attribute) : tagFree (pageText (attributeCell as)) := by
  cases as with
  | nil => exact tagFree_markup rfl (by decide) rfl
  | cons a as =>
      rw [attributeCell, if_neg (by simp), attributeItems_cons]
      exact tagFree_pageText_append (tagFree_attributeItem a) (tagFree_pageText_flatMap
        (fun b => tagFree_markup rfl (by decide) (tagFree_attributeItem b)) as)

theorem tagFree_fieldSection (s : FieldSection) : tagFree (pageText (fieldSection s)) := by
  have hclass : tagFree (if s.field.isRequired then "required" else "optional" : Text) := by
    split
    · exact tagFree_ofString rfl (by decide)
    · exact tagFree_ofString rfl (by decide)
  have hrequired : tagFree s.requiredText := by
    unfold FieldSection.requiredText
    split
    · exact tagFree_ofString rfl (by decide)
    · exact tagFree_ofString rfl (by decide)
  refine tagFree_pageText_append (tagFree_pageText_append ?_ (tagFree_attributeCell _))
    (tagFree_markup rfl (by decide) rfl)
  exact tagFree_markup rfl (by decide) <| tagFree_shown _ <|
    tagFree_markup rfl (by decide) <| tagFree_shown _ <|
    tagFree_markup rfl (by decide) <| tagFree_shown _ <|
    tagFree_markup rfl (by decide) <| tagFree_shown _ <|
    tagFree_markup rfl (by decide) <| tagFree_pageText_cons hclass <|
    tagFree_markup rfl (by decide) <| tagFree_pageText_cons hrequired <|
    tagFree_markup rfl (by decide) rfl

theorem tagFree_modelSection (s : ModelSection) : tagFree (pageText (modelSection s)) := by
  have hstart : tagFree (pageText [markup "    <div class=\"model model-spacing\" id=\"",
      shown s.anchor, markup "\">\n        <div class=\"model-name\">", shown s.model.name,
      markup "</div>\n"]) :=
    tagFree_markup rfl (by decide) <| tagFree_shown _ <|
    tagFree_markup rfl (by decide) <| tagFree_shown _ <|
    tagFree_markup rfl (by decide) rfl
  have hfields := tagFree_pageText_flatMap tagFree_fieldSection s.fields
  have hend : tagFree (pageText [markup "    </div>\n"]) :=
    tagFree_markup rfl (by decide) rfl
  exact tagFree_pageText_append (tagFree_pageText_append hstart hfields) hend

theorem tagFree_beforeContent (title : Text) (sections : List ModelSection) :
    tagFree (beforeContent title sections) := by
  have hhead : tagFree (pageText [markup headStart, markup "    <title>", shown title,
      markup "</title>\n", markup headEnd]) :=
    tagFree_pageText_cons tagFree_headStart <|
    tagFree_markup rfl (by decide) <| tagFree_shown _ <|
    tagFree_markup rfl (by decide) <| tagFree_pageText_cons tagFree_headEnd rfl
  have hlinks := tagFree_pageText_flatMap tagFree_modelLinks sections
  have hend : tagFree (pageText [markup "</div>\n"]) :=
    tagFree_markup rfl (by decide) rfl
  exact tagFree_pageText_append (tagFree_pageText_append hhead hlinks) hend

theorem tagFree_content (title : Text) (sections : List ModelSection) :
    tagFree (content title sections) := by
  have hstart : tagFree (pageText [markup "\n    <h1>", shown title, markup "</h1>\n"]) :=
    tagFree_markup rfl (by decide) <| tagFree_shown _ <|
    tagFree_markup rfl (by decide) rfl
  have hmodels := tagFree_pageText_flatMap tagFree_modelSection sections
  have hend : tagFree (pageText [markup "</div>\n"]) :=
    tagFree_markup rfl (by decide) rfl
  exact tagFree_pageText_append (tagFree_pageText_append hstart hmodels) hend

/-! ## Cutting the page -/

theorem cut?_contentTag_page (title : Text) (sections : List ModelSection) (record : Json) :
    Text.cut? contentTag (pageText (page title sections record)) =
      some (beforeContent title sections,
        content title sections ++ (scriptTag ++ afterScriptTag record)) := by
  have hbefore := tagFree_beforeContent title sections
  rw [tagFree, Bool.and_eq_true] at hbefore
  rw [pageText_page, Text.cut?_append hbefore.1]

def beforeScript (title : Text) (sections : List ModelSection) : Text :=
  beforeContent title sections ++ (contentTag ++ content title sections)

theorem pageText_page_eq (title : Text) (sections : List ModelSection) (record : Json) :
    pageText (page title sections record) =
      beforeScript title sections ++ (scriptTag ++ afterScriptTag record) := by
  rw [pageText_page, beforeScript]
  simp only [List.append_assoc]

theorem avoids_scriptTag_beforeScript (title : Text) (sections : List ModelSection) :
    Text.avoids scriptTag (beforeScript title sections) := by
  have hbefore := tagFree_beforeContent title sections
  have hcontent := tagFree_content title sections
  rw [tagFree, Bool.and_eq_true] at hbefore hcontent
  exact Text.avoids_append hbefore.2 (Text.avoids_append (by decide) hcontent.2)

theorem cut?_scriptTag_page (title : Text) (sections : List ModelSection) (record : Json) :
    Text.cut? scriptTag (pageText (page title sections record)) =
      some (beforeScript title sections, afterScriptTag record) := by
  rw [pageText_page_eq, Text.cut?_append (avoids_scriptTag_beforeScript title sections)]

end SchemaDocs.Html
