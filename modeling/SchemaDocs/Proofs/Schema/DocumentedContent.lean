import SchemaDocs.Proofs.CommandLine.ReportedRun
import SchemaDocs.Proofs.Document.Reordered
import SchemaDocs.Proofs.Loading
import SchemaDocs.Proofs.Text.Utf8RoundTrip
/-!
# Documents depend on the documented content

What is shown of a schema depends on its models only, however they are wrapped, and of its models
only on their content.  Two schema documents with the same content that can be read have the same
page and the same Markdown document under every title, or are rejected for the same reason.

* `Schema.Wraps`: the documents that hold a list of models;
* `DocumentPair.ofSchema_eq_of_sameContent`: schemas with the same content;
* `DocumentPair.unread_longDocument`: a schema that cannot be read for a number that is not shown.
-/

namespace SchemaDocs

/-! ## Schema documents -/

namespace Schema

/-- Whether a JSON document holds a list of raw models: it is the list, an object with the list, or
an object with such an object, which counts more than a list beside it. -/
inductive Wraps (items : List Json) : Json → Prop where
  | bare : Wraps items (.array items)
  | models {members : List (Text × Json)}
      (hmodels : valueAt? "models" members = some (.array items))
      (hdata : ∀ inner, valueAt? "datamodel" members ≠ some (.object inner)) :
      Wraps items (Json.object members)
  | dataModel {members inner : List (Text × Json)}
      (hdata : valueAt? "datamodel" members = some (Json.object inner))
      (hmodels : valueAt? "models" inner = some (.array items)) : Wraps items (.object members)

theorem Wraps.modelList?_eq {items : List Json} {document : Json} (h : Wraps items document) :
    modelList? document = some items := by
  cases h with
  | bare => rfl
  | @models members hmodels hdata =>
      have hwhole : Schema.dataModel (.object members) = .object members := by
        unfold Schema.dataModel
        dsimp only
        split
        · next inner hinner => exact absurd hinner (hdata inner)
        · rfl
      rw [modelList?, hwhole]
      simp only [hmodels]
  | dataModel hdata hmodels =>
      simp only [modelList?, Schema.dataModel, hdata, hmodels]

end Schema

namespace FileSystem

def HoldsJson (fs : FileSystem) (p : Path) (document : Json) : Prop :=
  ∃ bytes t, fs.read p = .ok bytes ∧ Utf8.decode bytes = .ok t ∧
    Json.read t.unifyNewlines = .ok document

theorem Holds.holdsJson {fs : FileSystem} {p : Path} {document : Json}
    (h : fs.Holds p document.text) (hdocument : document.Readable) :
    fs.HoldsJson p document := by
  obtain ⟨bytes, hencode, hread⟩ := h
  refine ⟨bytes, document.text, hread, Utf8.decode_of_encode hencode, ?_⟩
  rw [Json.unifyNewlines_text hdocument.realLiterals, Json.read_text hdocument]

end FileSystem

theorem Schema.ofText_of_longInteger {t : Text} {digits : Nat}
    (h : Json.read t.unifyNewlines = .error (.longInteger digits)) :
    ofText t = .error (.longInteger digits) := by
  unfold ofText
  rw [h]

theorem Schema.load_of_holdsJson {items : List Json} {document : Json}
    (hwraps : Wraps items document) {p : Path} {w : World} (h : w.files.HoldsJson p document) :
    ∃ v, load p w = .ok (Value.ofJson (.array items)) v := by
  obtain ⟨bytes, t, hbytes, hdecode, hread⟩ := h
  have hraw : Schema.ofText t = .ok (Value.ofJson (.array items)) := by
    unfold Schema.ofText
    simp only [hread, hwraps.modelList?_eq]
  exact ⟨_, load_eq_ok_iff.mpr ⟨⟨bytes, t, hbytes, hdecode, hraw⟩, rfl⟩⟩

/-! ## Their documents -/

namespace DocumentPair

def ofSchema (title : Text) (p : Path) : Run DocumentPair := do
  let raw ← Schema.load p
  build title raw

theorem exists_ofSchema {title : Text} {p : Path} {w v : World} {raw : Value}
    {models : List Model} {d : DocumentPair} (hload : Schema.load p w = .ok raw v)
    (hmodels : Model.listOfValue raw = .ok models) (hd : ofModels title models = .ok d) :
    ∃ u, ofSchema title p w = .ok d u := by
  obtain ⟨u, hu⟩ := exists_build hmodels hd v
  exact ⟨u, by rw [ofSchema, Run.bind_of_ok hload, hu]⟩

theorem ofSchema_of_shapeError {title : Text} {p : Path} {w v : World} {raw : Value}
    {error : ShapeError} (hload : Schema.load p w = .ok raw v)
    (hmodels : Model.listOfValue raw = .error error) :
    ofSchema title p w = .error (.shape error) v := by
  rw [ofSchema, Run.bind_of_ok hload]
  exact build_of_shapeError title hmodels v

/-- Two schema documents with the same content that can be read: the two pages and the two Markdown
documents are the same, for every title, or both schemas are rejected for the same reason. -/
theorem ofSchema_eq_of_sameContent {document other : Json} {items others : List Json}
    (hwraps : Schema.Wraps items document) (hother : Schema.Wraps others other)
    (hsame : List.Forall₂ Model.SameContent (Value.ofJsonItems items) (Value.ofJsonItems others))
    {p q : Path} {w v : World} (hp : w.files.HoldsJson p document)
    (hq : v.files.HoldsJson q other) :
    (∀ title, ∃ d e x y, ofSchema title p w = .ok d x ∧ ofSchema title q v = .ok e y ∧
      d.html = e.html ∧ d.markdown = e.markdown) ∨
    ∃ error, ∀ title, ∃ x y, ofSchema title p w = .error (.shape error) x ∧
      ofSchema title q v = .error (.shape error) y := by
  obtain ⟨w', hload⟩ := Schema.load_of_holdsJson hwraps hp
  obtain ⟨v', hload'⟩ := Schema.load_of_holdsJson hother hq
  have hagree : Results.Agree (List.Forall₂ Model.Reordered)
      (Model.listOfValue (Value.ofJson (.array items)))
      (Model.listOfValue (Value.ofJson (.array others))) := Model.agree_listOfValues hsame 0
  cases hmodels : Model.listOfValue (Value.ofJson (.array items)) with
  | error error =>
      have hmodels' := hagree.eq_error hmodels
      exact .inr ⟨error, fun title => ⟨w', v', ofSchema_of_shapeError hload hmodels,
        ofSchema_of_shapeError hload' hmodels'⟩⟩
  | ok models =>
      obtain ⟨models', hmodels', hreordered⟩ := hagree.exists_of_ok hmodels
      refine .inl fun title => ?_
      obtain ⟨d, hd⟩ := exists_ofModels_of_load title hload hmodels
      obtain ⟨e, he, hdocuments⟩ := (agree_ofModels title hreordered).exists_of_ok hd
      obtain ⟨x, hx⟩ := exists_ofSchema hload hmodels hd
      obtain ⟨y, hy⟩ := exists_ofSchema hload' hmodels' he
      exact ⟨d, e, x, y, hx, hy, hdocuments⟩

/-! ### A schema in another order -/

def schemaPath : Path := .ofText "schema.json"

def schemaFiles (document : Json) : FileSystem where
  nodes := [(["schema.json"], .file (Utf8.bytesLeft document.text))]

theorem holds_schemaFiles {document : Json} (hdocument : document.RealLiterals) :
    (schemaFiles document).Holds schemaPath document.text := by
  obtain ⟨bytes, hencode⟩ := Utf8.exists_encode_eq_ok.mpr (Json.surrogateFree_text hdocument)
  refine ⟨bytes, hencode, ?_⟩
  rw [← Utf8.bytesLeft_of_ok hencode]
  rfl

def plainModels : List Json :=
  [.object [("name", .string "M"),
    ("fields", .array [.object [("name", .string "f"), ("type", .string "T"),
      ("isId", .bool true),
      ("default", .object [("a", .int 1),
        ("b", .array [.object [("c", .int 2), ("d", .int 3)]])])]])]]

/-- The same models with their members the other way round and with others between them. -/
def shuffledModels : List Json :=
  [.object [("kind", .null),
    ("fields", .array [.object [
      ("default", .object [("b", .array [.object [("d", .int 3), ("c", .int 2)]]),
        ("a", .int 1)]),
      ("isList", .bool false), ("isId", .string "yes"), ("type", .string "T"),
      ("name", .string "f")]]),
    ("name", .string "M")]]

def shuffledDocument : Json :=
  .object [("datamodel", .object [("models", .array shuffledModels)]), ("models", .null)]

theorem sameContent_shuffledModels :
    List.Forall₂ Model.SameContent (Value.ofJsonItems plainModels)
      (Value.ofJsonItems shuffledModels) := by
  have hdefault : Value.Reordered
      (Value.ofJson (.object [("a", .int 1),
        ("b", .array [.object [("c", .int 2), ("d", .int 3)]])]))
      (Value.ofJson (.object [("b", .array [.object [("d", .int 3), ("c", .int 2)]]),
        ("a", .int 1)])) := by
    refine .map (by decide) (.cons (.same _) (.cons (.list (.cons ?_ .nil)) .nil))
      (List.Perm.swap _ _ _)
    exact .map (by decide) (.cons (.same _) (.cons (.same _) .nil)) (List.Perm.swap _ _ _)
  refine .cons ⟨iff_of_true ⟨_, _, rfl⟩ ⟨_, _, rfl⟩, .same _,
    iff_of_true ⟨_, _, rfl⟩ ⟨_, _, rfl⟩, .cons ?_ .nil⟩ .nil
  exact ⟨iff_of_true ⟨_, _, rfl⟩ ⟨_, _, rfl⟩, .same _, .same _, hdefault, by decide⟩

theorem ofSchema_eq_of_sameContent_shuffled :
    Schema.Wraps plainModels (.array plainModels) ∧
      Schema.Wraps shuffledModels shuffledDocument ∧
      List.Forall₂ Model.SameContent (Value.ofJsonItems plainModels)
        (Value.ofJsonItems shuffledModels) ∧
      (schemaFiles (.array plainModels)).HoldsJson schemaPath (.array plainModels) ∧
      (schemaFiles shuffledDocument).HoldsJson schemaPath shuffledDocument ∧
      ((∀ title, ∃ d e x y,
          ofSchema title schemaPath { files := schemaFiles (.array plainModels) } = .ok d x ∧
          ofSchema title schemaPath { files := schemaFiles shuffledDocument } = .ok e y ∧
          d.html = e.html ∧ d.markdown = e.markdown) ∨
        ∃ error, ∀ title, ∃ x y,
          ofSchema title schemaPath { files := schemaFiles (.array plainModels) } =
            .error (.shape error) x ∧
          ofSchema title schemaPath { files := schemaFiles shuffledDocument } =
            .error (.shape error) y) := by
  have hreadable : (Json.array plainModels).Readable := by
    simp only [plainModels, Json.Readable, Json.ReadableItems, Json.ReadableMembers]
    decide
  have hreadable' : shuffledDocument.Readable := by
    simp only [shuffledDocument, shuffledModels, Json.Readable, Json.ReadableItems,
      Json.ReadableMembers]
    decide
  have hplain : Schema.Wraps plainModels (.array plainModels) := .bare
  have hshuffled : Schema.Wraps shuffledModels shuffledDocument := .dataModel rfl rfl
  have hholds := (holds_schemaFiles hreadable.realLiterals).holdsJson hreadable
  have hholds' := (holds_schemaFiles hreadable'.realLiterals).holdsJson hreadable'
  exact ⟨hplain, hshuffled, sameContent_shuffledModels, hholds, hholds',
    ofSchema_eq_of_sameContent hplain hshuffled sameContent_shuffledModels hholds hholds'⟩

/-! ### A number that is not shown -/

def shortModels : List Json :=
  [.object [("name", .string "M"), ("fields", .array [])]]

/-- The same models with a whole number of 4301 digits. -/
def longModels : List Json :=
  [.object [("name", .string "M"), ("fields", .array []), ("x", .int (10 ^ 4300))]]

theorem realLiterals_longModels : (Json.array longModels).RealLiterals :=
  ⟨⟨trivial, trivial, trivial, trivial⟩, trivial⟩

theorem read_longModels :
    Json.read (Json.array longModels).text.unifyNewlines = .error (.longInteger 4301) := by
  have hlong : (match Json.read (Json.array longModels).text with
      | .error (.longInteger digits) => digits == 4301
      | _ => false) = true := by
    decide +kernel
  rw [Json.unifyNewlines_text realLiterals_longModels]
  split at hlong
  · next digits hread => rw [hread, beq_iff_eq.mp hlong]
  · cases hlong

theorem load_longModels :
    ∃ v, Schema.load schemaPath { files := schemaFiles (.array longModels) } =
      .error (.longInteger 4301) v := by
  obtain ⟨bytes, hencode, hread⟩ := holds_schemaFiles realLiterals_longModels
  have hraw := Schema.ofText_of_longInteger read_longModels
  rw [Schema.load_of_decode hread (Utf8.decode_of_encode hencode), hraw]
  exact ⟨_, rfl⟩

/-- A number in a member that is not shown keeps a schema from being read. -/
theorem unread_longDocument :
    Schema.Wraps shortModels (.array shortModels) ∧ Schema.Wraps longModels (.array longModels) ∧
      List.Forall₂ Model.SameContent (Value.ofJsonItems shortModels)
        (Value.ofJsonItems longModels) ∧
      (schemaFiles (.array shortModels)).Holds schemaPath (Json.array shortModels).text ∧
      (schemaFiles (.array longModels)).Holds schemaPath (Json.array longModels).text ∧
      (∃ d x, ofSchema "T" schemaPath { files := schemaFiles (.array shortModels) } = .ok d x) ∧
      ∃ y, ofSchema "T" schemaPath { files := schemaFiles (.array longModels) } =
        .error (.longInteger 4301) y := by
  have hsame : List.Forall₂ Model.SameContent (Value.ofJsonItems shortModels)
      (Value.ofJsonItems longModels) :=
    .cons ⟨iff_of_true ⟨_, _, rfl⟩ ⟨_, _, rfl⟩, .same _, iff_of_true ⟨_, _, rfl⟩ ⟨_, _, rfl⟩,
      .nil⟩ .nil
  have hreadable : (Json.array shortModels).Readable := by
    simp only [shortModels, Json.Readable, Json.ReadableItems, Json.ReadableMembers]
    decide
  have hholds := holds_schemaFiles hreadable.realLiterals
  have hholds' := holds_schemaFiles realLiterals_longModels
  refine ⟨.bare, .bare, hsame, hholds, hholds', ?_, ?_⟩
  · have hread := hholds.holdsJson hreadable
    obtain ⟨v, hload⟩ := Schema.load_of_holdsJson
      (w := { files := schemaFiles (.array shortModels) }) .bare hread
    obtain ⟨d, hd⟩ := exists_ofModels_of_load "T" hload rfl
    exact ⟨d, exists_ofSchema hload rfl hd⟩
  · obtain ⟨v, hload⟩ := load_longModels
    exact ⟨v, Run.bind_of_error hload _⟩

end DocumentPair

end SchemaDocs
