import SchemaDocs.Proofs.Document.Plain
import SchemaDocs.Proofs.Html.ScriptText
import SchemaDocs.Proofs.Text.Split
/-!
# The record in the page

The line after the tag of the script assigns the embedded record, and what it assigns is read back
as JSON: the title, the models in order, and for each field its record with the default as it is,
its description and its attributes.

* `read_embeddedRecord`: this holds for every schema in which no two code points would be joined.
-/

namespace SchemaDocs.Html

open Fragment (markup shown script)
open Json (isPlain)
open Text (PairFree)

/-! ## Lines -/

def recordLine (data : Text) : Text :=
  "    const schemaDocument = " ++ data ++ ";"

def afterRecord : Text :=
  pageText [markup exportScript, markup "        link.download = ",
    script (.string exportFileName), markup ";\n", markup pageEnd]

theorem tagFree_afterRecord : tagFree afterRecord := by
  have hname : CodePoint.ofChar '<' ∉ scriptText (.string exportFileName) :=
    lt_notMem_scriptText trivial
  have hscript : tagFree (Fragment.script (.string exportFileName)).text := by
    rw [tagFree, Bool.and_eq_true]
    exact ⟨Text.avoids_of_notMem rfl hname, Text.avoids_of_notMem rfl hname⟩
  exact tagFree_pageText_cons tagFree_exportScript <|
    tagFree_markup rfl (by decide) <| tagFree_pageText_cons hscript <|
    tagFree_markup rfl (by decide) <| tagFree_pageText_cons tagFree_pageEnd rfl

theorem afterScriptTag_eq (data : Json) :
    afterScriptTag data =
      CodePoint.ofChar '\n' :: (recordLine (scriptText data) ++
        CodePoint.ofChar '\n' :: afterRecord) := by
  have hstart : Text.ofString "\n    const schemaDocument = " =
      CodePoint.ofChar '\n' :: Text.ofString "    const schemaDocument = " := rfl
  have hend : Text.ofString ";\n" = Text.ofString ";" ++ [CodePoint.ofChar '\n'] := rfl
  simp only [afterScriptTag, recordLine, afterRecord, pageText_cons, Fragment.text, hstart, hend,
    List.append_assoc, List.cons_append, List.nil_append]

theorem exists_content_eq (title : Text) (sections : List ModelSection) :
    ∃ front, content title sections = front ++ [CodePoint.ofChar '\n'] := by
  have hend : pageText [markup "</div>\n"] = Text.ofString "</div>" ++ [CodePoint.ofChar '\n'] :=
    rfl
  refine ⟨pageText ([markup "\n    <h1>", shown title, markup "</h1>\n"] ++
    sections.flatMap modelSection) ++ Text.ofString "</div>", ?_⟩
  rw [content, pageText_append, hend, List.append_assoc]

theorem newline_notMem_recordLine {data : Json} (hdata : data.Readable) :
    CodePoint.ofChar '\n' ∉ recordLine (scriptText data) := by
  have hplain : CodePoint.ofChar '\n' ∉ scriptText data := fun hmem =>
    absurd (isPlain_scriptText hdata _ hmem) (by decide)
  rw [recordLine]
  simp only [List.mem_append, not_or]
  exact ⟨⟨by decide, hplain⟩, by decide⟩

theorem not_infix_of_mem_split {s t line : Text} (ht : Text.avoids scriptTag t) (hst : s <:+: t)
    (hline : line ∈ Text.split (CodePoint.ofChar '\n') s) : ¬ scriptTag <:+: line := fun htag =>
  Text.not_infix_of_avoids (by decide) ht ((htag.trans (Text.infix_of_mem_split hline)).trans hst)

/-- The tag of the script is a line of its own, no other line holds it, and the record is assigned
in the line after it. -/
theorem split_page (title : Text) (sections : List ModelSection) {data : Json}
    (hdata : data.Readable) :
    ∃ before after, Text.split (CodePoint.ofChar '\n') (pageText (page title sections data)) =
        before ++ [scriptTag, recordLine (scriptText data)] ++ after ∧
      ∀ line ∈ before ++ after, ¬ scriptTag <:+: line := by
  obtain ⟨front, hfront⟩ := exists_content_eq title sections
  have hafter := tagFree_afterRecord
  rw [tagFree, Bool.and_eq_true] at hafter
  have hpage : pageText (page title sections data) =
      (beforeContent title sections ++ (contentTag ++ front)) ++ CodePoint.ofChar '\n' ::
        (scriptTag ++ CodePoint.ofChar '\n' :: (recordLine (scriptText data) ++
          CodePoint.ofChar '\n' :: afterRecord)) := by
    rw [pageText_page, hfront, afterScriptTag_eq]
    simp only [List.append_assoc, List.cons_append, List.nil_append]
  have havoids := avoids_scriptTag_beforeScript title sections
  have hpart : beforeContent title sections ++ (contentTag ++ front) <:+:
      beforeScript title sections := by
    rw [beforeScript, hfront]
    simp only [← List.append_assoc]
    exact (List.prefix_append _ _).isInfix
  refine ⟨Text.split (CodePoint.ofChar '\n')
      (beforeContent title sections ++ (contentTag ++ front)),
    Text.split (CodePoint.ofChar '\n') afterRecord, ?_, ?_⟩
  · rw [hpage, Text.split_append_cons, Text.split_append_cons, Text.split_append_cons,
      Text.split_of_notMem (by decide : CodePoint.ofChar '\n' ∉ scriptTag),
      Text.split_of_notMem (newline_notMem_recordLine hdata)]
    simp
  · refine List.forall_mem_append.mpr ⟨fun line hline => ?_, fun line hline => ?_⟩
    · exact not_infix_of_mem_split havoids hpart hline
    · exact not_infix_of_mem_split hafter.2 (List.infix_refl _) hline

/-! ## The record -/

theorem render_of_plain {title : Text} {models : List Model} {sections : List ModelSection}
    (htitle : PairFree title) (hmodels : ∀ m ∈ models, m.Plain)
    (h : ModelSection.listOfModels models = .ok sections) :
    ∃ data, render title models = .ok (pageText (page title sections data)) ∧ data.Readable ∧
      (documentRecord title (sections.map ModelSection.fullRecord)).IsExpressedBy data := by
  obtain ⟨data, hdata, hreadable, hexpressed⟩ :=
    Value.exists_toJson? _ (plain_documentRecord htitle hmodels h)
  exact ⟨data, render_of_record h (exportRecord_of_plain title hmodels h) hdata, hreadable,
    hexpressed⟩

/-- The embedded record can be read back.  For every title and every schema without two code points
that would be joined, the page has one line with the tag of the script; the line after it assigns
printable ASCII without the characters that have a meaning in markup; and reading that as JSON gives
the record of sections that show the models in order, with every default as its writable form.  Every
document that was read is tidy. -/
theorem read_embeddedRecord {title : Text} {schema : Json} {models : List Model}
    (hschema : schema.Tidy) (hstrings : ∀ t ∈ schema.strings, PairFree t)
    (htitle : PairFree title) (hmodels : Model.listOfValue (Value.ofJson schema) = .ok models) :
    ∃ sections page before after text data,
      ModelSection.listOfModels models = .ok sections ∧
      List.Forall₂ ModelSection.Shows models sections ∧ render title models = .ok page ∧
      Text.split (CodePoint.ofChar '\n') page =
        before ++ [scriptTag, recordLine text] ++ after ∧
      (∀ line ∈ before ++ after, ¬ scriptTag <:+: line) ∧
      (∀ c ∈ text, 0x20 ≤ c.value ∧ c.value ≤ 0x7E ∧ c ≠ CodePoint.ofChar '<' ∧
        c ≠ CodePoint.ofChar '>' ∧ c ≠ CodePoint.ofChar '&' ∧ c ≠ CodePoint.ofChar '\'') ∧
      Json.read text = .ok data ∧
      (documentRecord title (sections.map ModelSection.fullRecord)).IsExpressedBy data := by
  have hplain := Model.plain_of_listOfValue (Value.plain_ofJson schema hschema hstrings) hmodels
  obtain ⟨sections, hsections⟩ := exists_listOfModels_of_plain hplain
  obtain ⟨data, hpage, hdata, hexpressed⟩ := render_of_plain htitle hplain hsections
  obtain ⟨before, after, hlines, hothers⟩ := split_page title sections hdata
  refine ⟨sections, _, before, after, scriptText data, data, hsections,
    ModelSection.listOfModels_eq_ok.mp hsections, hpage, hlines, hothers, fun c hc => ?_,
    read_scriptText hdata, hexpressed⟩
  have hc := isPlain_scriptText hdata c hc
  have hprintable := Json.isPrintable_of_isPlain hc
  rw [Json.isPrintable, Bool.and_eq_true, decide_eq_true_eq, decide_eq_true_eq] at hprintable
  exact ⟨hprintable.1, hprintable.2, Json.ne_of_isPlain hc rfl, Json.ne_of_isPlain hc rfl,
    Json.ne_of_isPlain hc rfl, Json.ne_of_isPlain hc rfl⟩

/-- A schema whose defaults hold what ends a script, quotes, a backslash, a control character, a
character beyond the basic plane and surrogates in the wrong order. -/
def trickySchema : Json :=
  .array [.object [("name", .string "</script>"), ("fields", .array [
    .object [("name", .string "a"), ("type", .string "T"), ("relationName", .string "r"),
      ("default", .object [("k", .array [.null, .int (-3), .real "1.5e10"]),
        ("'\"\\", .string [⟨0x1F600, by decide⟩, ⟨0x07, by decide⟩]), ("", .bool true)])],
    .object [("name", .string "b"), ("type", .string "<&>"),
      ("default", .string [⟨0xDC00, by decide⟩, ⟨0xD800, by decide⟩])]])]]

theorem tidy_trickySchema : trickySchema.Tidy := by
  simp only [trickySchema, Json.Tidy, Json.TidyItems, Json.TidyMembers, and_true, true_and]
  decide

theorem pairFree_trickySchema : ∀ t ∈ trickySchema.strings, PairFree t := by
  decide

theorem read_embeddedRecord_tricky :
    ∃ models, Model.listOfValue (Value.ofJson trickySchema) = .ok models ∧
      ∃ sections page before after text data,
        ModelSection.listOfModels models = .ok sections ∧
        List.Forall₂ ModelSection.Shows models sections ∧
        render "</script>" models = .ok page ∧
        Text.split (CodePoint.ofChar '\n') page =
          before ++ [scriptTag, recordLine text] ++ after ∧
        (∀ line ∈ before ++ after, ¬ scriptTag <:+: line) ∧
        (∀ c ∈ text, 0x20 ≤ c.value ∧ c.value ≤ 0x7E ∧ c ≠ CodePoint.ofChar '<' ∧
          c ≠ CodePoint.ofChar '>' ∧ c ≠ CodePoint.ofChar '&' ∧ c ≠ CodePoint.ofChar '\'') ∧
        Json.read text = .ok data ∧
        (documentRecord "</script>" (sections.map ModelSection.fullRecord)).IsExpressedBy data :=
  ⟨_, rfl, read_embeddedRecord tidy_trickySchema pairFree_trickySchema (by decide) rfl⟩

end SchemaDocs.Html
