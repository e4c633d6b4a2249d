import SchemaDocs.Proofs.Document.Sections
import SchemaDocs.Proofs.Html.Layout
import SchemaDocs.Proofs.Results
/-!
# Reading the content of the page

The content of the page is read back by its fixed tags: shown text ends where a tag or the end of an
attribute value begins, and the characters are put back for the entities in it.

* `readContent_render`: what is read from a page is the title and all that its sections show, and
  these show the models.
-/

namespace SchemaDocs.Html

open Fragment (markup shown script)
open Text (dropStart? cut?)

/-! ## What is read -/

structure ShownField where
  anchor : Text
  name : Text
  description : Text
  type : Text
  required : Text
  attributes : List Attribute
  deriving DecidableEq

structure ShownModel where
  anchor : Text
  name : Text
  fields : List ShownField
  deriving DecidableEq

def ShownField.ofSection (s : FieldSection) : ShownField where
  anchor := s.anchor
  name := s.field.name
  description := s.description
  type := s.field.type
  required := s.requiredText
  attributes := s.attributes

def ShownModel.ofSection (s : ModelSection) : ShownModel where
  anchor := s.anchor
  name := s.model.name
  fields := s.fields.map ShownField.ofSection

/-! ## Reading -/

/-- Whether shown text goes on with a code point. -/
def goesOn (c : CodePoint) : Bool :=
  c != '<' && c != '"'

/-- The shown texts that follow given tags, each up to the next tag or the end of the value. -/
def readSlots : List Text → Text → Option (List Text × Text)
  | [], t => some ([], t)
  | tag :: tags, t => do
    let t ← dropStart? tag t
    let (texts, rest) ← readSlots tags (t.dropWhile goesOn)
    return (unescaped (t.takeWhile goesOn) :: texts, rest)

def readMany {α : Type} (read : Text → Option (α × Text)) (t : Text) : List α × Text :=
  match read t with
  | none => ([], t)
  | some (x, rest) =>
    if rest.length < t.length then
      let (xs, rest) := readMany read rest
      (x :: xs, rest)
    else ([], t)
termination_by t.length

def readAttribute (t : Text) : Option (Attribute × Text) :=
  match readSlots ["<a class=\"relation\" href=\"#", "\">"] t with
  | some ([target, text], rest) =>
    (dropStart? "</a>" rest).map fun rest => ({ text, target := some target }, rest)
  | _ =>
    match readSlots ["<span class=\"attribute\">"] t with
    | some ([text], rest) => (dropStart? "</span>" rest).map fun rest => ({ text }, rest)
    | _ => none

def readNextAttribute (t : Text) : Option (Attribute × Text) :=
  (dropStart? ", " t).bind readAttribute

/-- The attributes in a cell; a dash stands for none. -/
def readAttributeCell (t : Text) : Option (List Attribute × Text) :=
  match dropStart? "-" t with
  | some rest => some ([], rest)
  | none => do
    let (a, rest) ← readAttribute t
    let (as, rest) := readMany readNextAttribute rest
    return (a :: as, rest)

def fieldTags : List Text := [
  "        <div class=\"table-container\" id=\"",
  "\">\n            <h2>",
  "</h2>\n            <p class=\"description\">",
  "</p>\n            <table>\n                <tr><th>Type</th><td>",
  "</td></tr>\n                <tr><th>Required</th><td class=\"",
  "\">"]

def readField (t : Text) : Option (ShownField × Text) := do
  let (texts, t) ← readSlots fieldTags t
  let t ← dropStart? "</td></tr>\n                <tr><th>Attributes</th><td>" t
  let (attributes, t) ← readAttributeCell t
  let t ← dropStart? "</td></tr>\n            </table>\n        </div>\n" t
  match texts with
  | [anchor, name, description, type, _, required] =>
    some ({ anchor, name, description, type, required, attributes }, t)
  | _ => none

def modelTags : List Text :=
  ["    <div class=\"model model-spacing\" id=\"", "\">\n        <div class=\"model-name\">"]

def readModel (t : Text) : Option (ShownModel × Text) := do
  let (texts, t) ← readSlots modelTags t
  let t ← dropStart? "</div>\n" t
  let (fields, t) := readMany readField t
  let t ← dropStart? "    </div>\n" t
  match texts with
  | [anchor, name] => some ({ anchor, name, fields }, t)
  | _ => none

def readContent (page : Text) : Option (Text × List ShownModel) := do
  let (_, t) ← cut? contentTag page
  let (content, _) ← cut? scriptTag t
  let (texts, t) ← readSlots ["\n    <h1>"] content
  let t ← dropStart? "</h1>\n" t
  let (models, t) := readMany readModel t
  match texts with
  | [title] => if t = "</div>\n" then some (title, models) else none
  | _ => none

/-! ## Slots -/

/-- Whether shown text ends where a text begins. -/
def stops (t : Text) : Bool :=
  t.head?.any fun c => !goesOn c

def slotsText : List Text → List Text → Text
  | tag :: tags, t :: texts => tag ++ (escaped t ++ slotsText tags texts)
  | _, _ => []

theorem stops_append {s : Text} (hs : stops s) (t : Text) : stops (s ++ t) := by
  cases s with
  | nil => cases hs
  | cons c rest => exact hs

theorem goesOn_of_mem_escaped {t : Text} : ∀ c ∈ escaped t, goesOn c = true := by
  intro c hc
  have hshown := isShown_of_mem_escaped hc
  simp only [isShown, Bool.and_eq_true] at hshown
  simp [goesOn, hshown.1.1.1, hshown.1.2]

theorem takeWhile_escaped (t : Text) {rest : Text} (hrest : stops rest) :
    (escaped t ++ rest).takeWhile goesOn = escaped t := by
  rw [List.takeWhile_append_of_pos goesOn_of_mem_escaped]
  cases rest with
  | nil => cases hrest
  | cons c rest =>
      have hc : goesOn c = false := by simpa [stops] using hrest
      rw [List.takeWhile_cons_of_neg (by simp [hc]), List.append_nil]

theorem dropWhile_escaped (t : Text) {rest : Text} (hrest : stops rest) :
    (escaped t ++ rest).dropWhile goesOn = rest := by
  rw [List.dropWhile_append_of_pos goesOn_of_mem_escaped]
  cases rest with
  | nil => cases hrest
  | cons c rest =>
      have hc : goesOn c = false := by simpa [stops] using hrest
      rw [List.dropWhile_cons_of_neg (by simp [hc])]

theorem readSlots_cons (tag t : Text) (tags : List Text) {rest : Text} (hrest : stops rest) :
    readSlots (tag :: tags) (tag ++ (escaped t ++ rest)) =
      (readSlots tags rest).map fun (texts, after) => (t :: texts, after) := by
  rw [readSlots, Text.dropStart?_append]
  simp only [Option.bind_eq_bind, Option.bind_some, dropWhile_escaped t hrest,
    takeWhile_escaped t hrest, unescaped_escaped]
  cases readSlots tags rest <;> rfl

theorem readSlots_slotsText (tags texts : List Text) {rest : Text}
    (hlength : tags.length = texts.length) (htags : ∀ tag ∈ tags.tail, stops tag)
    (hrest : stops rest) : readSlots tags (slotsText tags texts ++ rest) = some (texts, rest) := by
  induction tags generalizing texts with
  | nil =>
      have htexts : texts = [] := List.length_eq_zero_iff.mp hlength.symm
      subst htexts
      rfl
  | cons tag tags ih =>
      cases texts with
      | nil => cases hlength
      | cons t texts =>
          have hlength' : tags.length = texts.length := by simpa using hlength
          have hnext : stops (slotsText tags texts ++ rest) := by
            cases tags with
            | nil =>
                have htexts : texts = [] := List.length_eq_zero_iff.mp hlength'.symm
                rw [htexts]
                exact hrest
            | cons next others =>
                cases texts with
                | nil => cases hlength'
                | cons u texts =>
                    rw [slotsText, List.append_assoc]
                    exact stops_append (htags next List.mem_cons_self) _
          rw [slotsText, List.append_assoc, List.append_assoc, readSlots_cons _ _ _ hnext,
            ih _ hlength' (fun other hother => htags other (List.mem_of_mem_tail hother))]
          rfl

/-! ## Repeated items -/

theorem readMany_of_none {α : Type} {read : Text → Option (α × Text)} {t : Text}
    (h : read t = none) : readMany read t = ([], t) := by
  rw [readMany, h]

theorem readMany_flatMap {α β : Type} {read : Text → Option (α × Text)} {write : β → Text}
    {view : β → α} {tail : Text} (hwrite : ∀ b, write b ≠ [])
    (hread : ∀ b rest, read (write b ++ rest) = some (view b, rest)) (htail : read tail = none)
    (bs : List β) : readMany read (bs.flatMap write ++ tail) = (bs.map view, tail) := by
  induction bs with
  | nil => exact readMany_of_none htail
  | cons b bs ih =>
      have hshorter : (bs.flatMap write ++ tail).length <
          (write b ++ (bs.flatMap write ++ tail)).length := by
        have hpos := List.length_pos_iff.mpr (hwrite b)
        have hlength : (write b ++ (bs.flatMap write ++ tail)).length =
            (write b).length + (bs.flatMap write ++ tail).length := List.length_append
        omega
      rw [List.flatMap_cons, List.append_assoc, readMany, hread]
      simp only [if_pos hshorter, ih, List.map_cons]

/-! ## Attributes -/

theorem readAttribute_attributeItem (a : Attribute) (rest : Text) :
    readAttribute (pageText (attributeItem a) ++ rest) = some (a, rest) := by
  obtain ⟨text, target⟩ := a
  cases target with
  | some target =>
      have hread : readSlots ["<a class=\"relation\" href=\"#", "\">"]
          (slotsText ["<a class=\"relation\" href=\"#", "\">"] [target, text] ++
            (Text.ofString "</a>" ++ rest)) =
          some ([target, text], Text.ofString "</a>" ++ rest) :=
        readSlots_slotsText _ _ rfl (by decide) (stops_append (by decide) rest)
      simp only [slotsText, List.append_assoc, List.nil_append] at hread
      simp only [attributeItem, pageText_cons, pageText_nil, Fragment.text, List.append_assoc,
        List.nil_append]
      rw [readAttribute, hread]
      simp only [Text.dropStart?_append, Option.map_some]
  | none =>
      have hspan : readSlots ["<span class=\"attribute\">"]
          (slotsText ["<span class=\"attribute\">"] [text] ++
            (Text.ofString "</span>" ++ rest)) =
          some ([text], Text.ofString "</span>" ++ rest) :=
        readSlots_slotsText _ _ rfl (by decide) (stops_append (by decide) rest)
      have hlink (t : Text) : readSlots ["<a class=\"relation\" href=\"#", "\">"]
          (Text.ofString "<span class=\"attribute\">" ++ t) = none := by
        rw [readSlots, Text.dropStart?_of_differs (Text.differs_append (by decide) t)]
        rfl
      simp only [slotsText, List.append_assoc, List.nil_append] at hspan
      simp only [attributeItem, pageText_cons, pageText_nil, Fragment.text, List.append_assoc,
        List.nil_append]
      rw [readAttribute, hlink]
      simp only [hspan, Text.dropStart?_append, Option.map_some]

theorem readNextAttribute_attributeItem (a : Attribute) (rest : Text) :
    readNextAttribute (pageText (markup ", " :: attributeItem a) ++ rest) = some (a, rest) := by
  rw [pageText_cons, List.append_assoc, readNextAttribute, Fragment.text, Text.dropStart?_append,
    Option.bind_some, readAttribute_attributeItem]

theorem readAttributeCell_attributeCell (as : List Attribute) {rest : Text}
    (hrest : rest.head? = some (CodePoint.ofChar '<')) :
    readAttributeCell (pageText (attributeCell as) ++ rest) = some (as, rest) := by
  cases as with
  | nil =>
      have hcell : pageText (attributeCell []) = Text.ofString "-" := by
        simp [attributeCell, Fragment.text]
      rw [hcell, readAttributeCell, Text.dropStart?_append]
  | cons a as =>
      have hcell : pageText (attributeCell (a :: as)) =
          pageText (attributeItem a) ++
            as.flatMap fun b => pageText (markup ", " :: attributeItem b) := by
        rw [attributeCell, if_neg (by simp), attributeItems_cons, pageText_append,
          pageText_flatMap]
      -- An item begins with a tag, so it is not taken for the dash of an empty cell.
      have hdash (t : Text) : dropStart? "-" (pageText (attributeItem a) ++ t) = none := by
        apply Text.dropStart?_of_differs
        apply Text.differs_append
        unfold attributeItem
        split <;> exact Text.differs_append (by decide) _
      have hend : readNextAttribute rest = none := by
        obtain ⟨after, rfl⟩ := List.head?_eq_some_iff.mp hrest
        rfl
      have hmany := readMany_flatMap (fun b => by simp [Fragment.text, Text.ofString])
        readNextAttribute_attributeItem hend as
      rw [hcell, List.append_assoc, readAttributeCell, hdash]
      simp only [readAttribute_attributeItem, Option.bind_eq_bind, Option.bind_some, hmany,
        List.map_id']
      rfl

/-! ## Fields, models and the whole content -/

theorem pageText_fieldSection (s : FieldSection) :
    pageText (fieldSection s) =
      slotsText fieldTags [s.anchor, s.field.name, s.description, s.field.type,
          if s.field.isRequired then "required" else "optional", s.requiredText] ++
        (Text.ofString "</td></tr>\n                <tr><th>Attributes</th><td>" ++
          (pageText (attributeCell s.attributes) ++
            Text.ofString "</td></tr>\n            </table>\n        </div>\n")) := by
  have hclass : escaped (if s.field.isRequired then "required" else "optional") =
      (if s.field.isRequired then "required" else "optional" : Text) := by
    split <;> decide
  have hrequired : escaped s.requiredText = s.requiredText := by
    unfold FieldSection.requiredText
    split <;> decide
  simp only [fieldSection, fieldTags, slotsText, pageText_append, pageText_cons, pageText_nil,
    Fragment.text, List.append_assoc, List.append_nil, hclass, hrequired]

theorem readField_fieldSection (s : FieldSection) (rest : Text) :
    readField (pageText (fieldSection s) ++ rest) = some (ShownField.ofSection s, rest) := by
  have hslots := readSlots_slotsText fieldTags
    [s.anchor, s.field.name, s.description, s.field.type,
      if s.field.isRequired then "required" else "optional", s.requiredText]
    rfl (by decide) (stops_append (s := "</td></tr>\n                <tr><th>Attributes</th><td>")
      (by decide) (pageText (attributeCell s.attributes) ++
        (Text.ofString "</td></tr>\n            </table>\n        </div>\n" ++ rest)))
  rw [pageText_fieldSection, readField]
  simp only [List.append_assoc]
  rw [hslots]
  simp only [Option.bind_eq_bind, Option.bind_some, Text.dropStart?_append]
  rw [readAttributeCell_attributeCell _ rfl]
  simp only [Option.bind_some, Text.dropStart?_append]
  rfl

theorem pageText_fieldSection_ne_nil (s : FieldSection) : pageText (fieldSection s) ≠ [] := by
  intro h
  have hread := readField_fieldSection s []
  rw [h] at hread
  cases hread

theorem pageText_modelSection (s : ModelSection) :
    pageText (modelSection s) =
      slotsText modelTags [s.anchor, s.model.name] ++
        (Text.ofString "</div>\n" ++
          (s.fields.flatMap (fun t => pageText (fieldSection t)) ++
            Text.ofString "    </div>\n")) := by
  simp only [modelSection, modelTags, slotsText, pageText_append, pageText_cons, pageText_nil,
    pageText_flatMap, Fragment.text, List.append_assoc, List.append_nil]

theorem readModel_modelSection (s : ModelSection) (rest : Text) :
    readModel (pageText (modelSection s) ++ rest) = some (ShownModel.ofSection s, rest) := by
  have hslots := readSlots_slotsText modelTags [s.anchor, s.model.name] rfl (by decide)
    (stops_append (s := "</div>\n") (by decide)
      (s.fields.flatMap (fun t => pageText (fieldSection t)) ++
        (Text.ofString "    </div>\n" ++ rest)))
  have hend : readField (Text.ofString "    </div>\n" ++ rest) = none := by
    rw [readField, fieldTags, readSlots,
      Text.dropStart?_of_differs (Text.differs_append (by decide) rest)]
    rfl
  have hmany := readMany_flatMap pageText_fieldSection_ne_nil readField_fieldSection hend s.fields
  rw [pageText_modelSection, readModel]
  simp only [List.append_assoc]
  rw [hslots]
  simp only [Option.bind_eq_bind, Option.bind_some, Text.dropStart?_append, hmany]
  rfl

theorem pageText_modelSection_ne_nil (s : ModelSection) : pageText (modelSection s) ≠ [] := by
  intro h
  have hread := readModel_modelSection s []
  rw [h] at hread
  cases hread

theorem readContent_page (title : Text) (sections : List ModelSection) (record : Json) :
    readContent (pageText (page title sections record)) =
      some (title, sections.map ShownModel.ofSection) := by
  have hinside := tagFree_content title sections
  rw [tagFree, Bool.and_eq_true] at hinside
  have hcontent : content title sections =
      slotsText ["\n    <h1>"] [title] ++ (Text.ofString "</h1>\n" ++
        (sections.flatMap (fun s => pageText (modelSection s)) ++ Text.ofString "</div>\n")) := by
    simp only [content, slotsText, pageText_append, pageText_cons, pageText_nil, pageText_flatMap,
      Fragment.text, List.append_assoc, List.append_nil]
  have hslots := readSlots_slotsText ["\n    <h1>"] [title] rfl (by decide)
    (stops_append (s := "</h1>\n") (by decide)
      (sections.flatMap (fun s => pageText (modelSection s)) ++ Text.ofString "</div>\n"))
  have hend : readModel (Text.ofString "</div>\n") = none := by
    rw [readModel, modelTags, readSlots, Text.dropStart?_of_differs (by decide)]
    rfl
  have hmany := readMany_flatMap pageText_modelSection_ne_nil readModel_modelSection hend sections
  rw [readContent, cut?_contentTag_page]
  simp only [Option.bind_eq_bind, Option.bind_some, Text.cut?_append hinside.2]
  rw [hcontent, hslots]
  simp only [Option.bind_some, Text.dropStart?_append, hmany, if_true]

/-- Nothing is lost in the page: reading the content of a page that was rendered gives the title
and what the sections of the models show, whatever the texts are. -/
theorem readContent_render {title page : Text} {models : List Model}
    (h : render title models = .ok page) :
    ∃ sections, ModelSection.listOfModels models = .ok sections ∧
      List.Forall₂ ModelSection.Shows models sections ∧
      readContent page = some (title, sections.map ShownModel.ofSection) := by
  obtain ⟨sections, record, hsections, rfl⟩ := render_eq_ok h
  exact ⟨sections, hsections, ModelSection.listOfModels_eq_ok.mp hsections,
    readContent_page title sections record⟩

/-- Names that look like tags and entities, and a relation to a type in markup. -/
def markupModel : Model where
  name := "<a href=\"#x\">"
  fields := [{
    name := "&amp;", type := "</td>", default := .text "\", <span class='attribute'>"
    relation := some "@relation(</td>)" }]

theorem readContent_render_markup :
    ∃ page, render "</h1><script>" [markupModel] = .ok page ∧
      ∃ sections, ModelSection.listOfModels [markupModel] = .ok sections ∧
        List.Forall₂ ModelSection.Shows [markupModel] sections ∧
        readContent page =
          some (Text.ofString "</h1><script>", sections.map ShownModel.ofSection) :=
  ⟨_, rfl, readContent_render rfl⟩

end SchemaDocs.Html
