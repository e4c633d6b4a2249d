import SchemaDocs.Proofs.Loading
/-!
# What a settings file has to satisfy

The tables and keys of settings come with requirements: a table is a table, a text is a string that
is not blank, and a file name is a text that is the last component of the path it spells.  They bind
where something is given at all, and nothing else in the document counts.  A document that meets all
of them gives the trimmed texts, with a default for each one that it leaves out, and any other
document is refused for the first requirement that it violates.

* `requirements`: the requirements on a document in the order of the checks;
* `ofDocument_eq`: settings are read from a document as the requirements say;
* `load_exact`: so they are from every file, and which file it is that they are read from.
-/

namespace SchemaDocs.Settings

/-! ## What a document gives -/

def given? (document : Toml.Entries) (table key : Text) : Option Toml :=
  match valueAt? table document with
  | some (.table entries) => valueAt? key entries
  | _ => none

/-- The text of a string without the blanks around it, if anything is left. -/
def trimmed? : Toml → Option Text
  | .string t => if t.trim.isEmpty then none else some t.trim
  | _ => none

def isTable : Toml → Bool
  | .table _ => true
  | _ => false

def givenText? (document : Toml.Entries) (table key : Text) : Option Text :=
  (given? document table key).bind trimmed?

/-! ## Requirements -/

/-- Whether a document meets a requirement, and how a violation is reported. -/
structure Requirement where
  met : Bool
  error : SettingsError

def requiresTable (document : Toml.Entries) (table : Text) : Requirement where
  met := (valueAt? table document).all isTable
  error := .notATable table

def requiresText (document : Toml.Entries) (table key : Text) : Requirement where
  met := (given? document table key).all fun v => (trimmed? v).isSome
  error := .blank table key

/-- What is given as a file name is the last component of the path that it spells. -/
def requiresFileName (document : Toml.Entries) (key : Text) : Requirement where
  met := (givenText? document "output" key).all fun t => (Path.ofText t).name == t
  error := .notAFileName key

/-- The requirements on a document in the order in which they are checked. -/
def requirements (document : Toml.Entries) : List Requirement := [
  requiresTable document "schema",
  requiresTable document "output",
  requiresTable document "documentation",
  requiresText document "schema" "path",
  requiresText document "output" "directory",
  requiresText document "output" "html",
  requiresFileName document "html",
  requiresText document "output" "markdown",
  requiresFileName document "markdown",
  requiresText document "documentation" "title"]

/-- The settings that a document gives, each with its default if the document leaves it out. -/
def given (document : Toml.Entries) : Settings :=
  let defaults : Settings := {}
  { schema := (givenText? document "schema" "path").elim defaults.schema .ofText
    directory := (givenText? document "output" "directory").elim defaults.directory .ofText
    htmlFile := (givenText? document "output" "html").getD defaults.htmlFile
    markdownFile := (givenText? document "output" "markdown").getD defaults.markdownFile
    title := (givenText? document "documentation" "title").getD defaults.title }

/-! ## Checking requirements -/

/-- A result if all requirements are met, and otherwise the error of the first that is not. -/
def checked {α : Type} (requirements : List Requirement) (a : α) : Except SettingsError α :=
  match requirements.find? fun r => !r.met with
  | none => .ok a
  | some r => .error r.error

section Checked

variable {α β : Type} {first rest : List Requirement} {a : α} {b : β}

theorem checked_bind {x : Except SettingsError α} {f : α → Except SettingsError β}
    (hx : x = checked first a) (hf : f a = checked rest b) :
    x >>= f = checked (first ++ rest) b := by
  rw [hx]
  unfold checked at hf ⊢
  rw [List.find?_append]
  cases first.find? fun r => !r.met with
  | none => exact hf
  | some r => rfl

theorem checked_singleton (r : Requirement) (a : α) :
    checked [r] a = if r.met then .ok a else .error r.error := by
  unfold checked
  cases hmet : r.met with
  | true => simp [hmet]
  | false => simp [hmet]

theorem checked_eq_ok_iff {requirements : List Requirement} {c : α} :
    checked requirements a = .ok c ↔ (∀ r ∈ requirements, r.met) ∧ c = a := by
  have hnone : requirements.find? (fun r => !r.met) = none ↔ ∀ r ∈ requirements, r.met := by
    simp [List.find?_eq_none]
  rw [← hnone]
  unfold checked
  cases requirements.find? fun r => !r.met with
  | none => simp [eq_comm]
  | some r => simp

theorem checked_eq_error_iff {requirements : List Requirement} {error : SettingsError} :
    checked requirements a = .error error ↔
      ∃ r, requirements.find? (fun r => !r.met) = some r ∧ r.error = error := by
  unfold checked
  cases requirements.find? fun r => !r.met with
  | none => simp
  | some r => simp

end Checked

/-! ## Reading -/

/-- The entries of a table of a document; none if there is no such table. -/
def entriesOf (document : Toml.Entries) (table : Text) : Toml.Entries :=
  match valueAt? table document with
  | some (.table entries) => entries
  | _ => []

theorem valueAt?_entriesOf (document : Toml.Entries) (table key : Text) :
    valueAt? key (entriesOf document table) = given? document table key := by
  unfold entriesOf given?
  split <;> rfl

theorem tableOf_eq (document : Toml.Entries) (table : Text) :
    tableOf table document =
      checked [requiresTable document table] (entriesOf document table) := by
  rw [checked_singleton]
  unfold tableOf requiresTable entriesOf
  cases valueAt? table document with
  | none => rfl
  | some v => cases v <;> rfl

theorem textOf_eq (document : Toml.Entries) (table key default : Text) :
    textOf (entriesOf document table) table key default =
      checked [requiresText document table key] ((givenText? document table key).getD default) := by
  rw [checked_singleton]
  unfold textOf requiresText givenText?
  rw [valueAt?_entriesOf]
  cases given? document table key with
  | none => rfl
  | some v =>
      cases v with
      | string t =>
          cases hblank : t.trim.isEmpty with
          | true => simp only [trimmed?, hblank, Option.all_some, Option.isSome_none, if_true,
              Bool.false_eq_true, if_false]
          | false => simp only [trimmed?, hblank, Option.all_some, Option.isSome_some, if_true,
              Bool.false_eq_true, if_false, Option.bind_some, Option.getD_some]
      | _ => rfl

theorem fileNameOf_eq (document : Toml.Entries) {key default : Text}
    (hdefault : (Path.ofText default).name = default) :
    fileNameOf (entriesOf document "output") key default =
      checked [requiresText document "output" key, requiresFileName document key]
        ((givenText? document "output" key).getD default) := by
  refine checked_bind (textOf_eq document "output" key default) ?_
  rw [checked_singleton]
  unfold requiresFileName
  cases givenText? document "output" key with
  | none => exact if_pos hdefault
  | some t =>
      simp only [Option.getD_some, Option.all_some, beq_iff_eq]
      rfl

theorem ofText_getD_text {p : Path} (hp : Path.ofText p.text = p) (t : Option Text) :
    Path.ofText (t.getD p.text) = t.elim p .ofText := by
  cases t with
  | none => exact hp
  | some t => rfl

theorem ofDocument_eq (document : Toml.Entries) :
    ofDocument document = checked (requirements document) (given document) := by
  have hall : requirements document = [requiresTable document "schema"] ++
      ([requiresTable document "output"] ++ ([requiresTable document "documentation"] ++
      ([requiresText document "schema" "path"] ++ ([requiresText document "output" "directory"] ++
      ([requiresText document "output" "html", requiresFileName document "html"] ++
      ([requiresText document "output" "markdown", requiresFileName document "markdown"] ++
      ([requiresText document "documentation" "title"] ++ []))))))) := rfl
  have hschema := ofText_getD_text (p := ({} : Settings).schema) (by decide)
    (givenText? document "schema" "path")
  have hdirectory := ofText_getD_text (p := ({} : Settings).directory) (by decide)
    (givenText? document "output" "directory")
  rw [hall]
  refine checked_bind (tableOf_eq document "schema") ?_
  refine checked_bind (tableOf_eq document "output") ?_
  refine checked_bind (tableOf_eq document "documentation") ?_
  refine checked_bind (textOf_eq document "schema" "path" _) ?_
  refine checked_bind (textOf_eq document "output" "directory" _) ?_
  refine checked_bind (fileNameOf_eq document (by decide)) ?_
  refine checked_bind (fileNameOf_eq document (by decide)) ?_
  refine checked_bind (textOf_eq document "documentation" "title" _) ?_
  rw [hschema, hdirectory]
  rfl

/-! ## What counts in a document -/

def tables : List Text :=
  ["schema", "output", "documentation"]

def keys : List (Text × Text) :=
  [("schema", "path"), ("output", "directory"), ("output", "html"), ("output", "markdown"),
    ("documentation", "title")]

/-- Whether two documents say the same about settings: the same tables are tables or absent, and
the same is given under each key. -/
structure SameSettings (document other : Toml.Entries) : Prop where
  tables : ∀ table ∈ tables,
    (requiresTable document table).met = (requiresTable other table).met
  keys : ∀ k ∈ keys, given? document k.1 k.2 = given? other k.1 k.2

namespace SameSettings

variable {document other : Toml.Entries} (h : SameSettings document other)
include h

theorem requiresTable_eq (table : Text) (htable : table ∈ Settings.tables) :
    requiresTable document table = requiresTable other table :=
  congrArg (Requirement.mk · _) (h.tables table htable)

theorem givenText?_eq (table key : Text) (hkey : (table, key) ∈ Settings.keys) :
    givenText? document table key = givenText? other table key :=
  congrArg (·.bind trimmed?) (h.keys (table, key) hkey)

theorem requiresText_eq (table key : Text) (hkey : (table, key) ∈ Settings.keys) :
    requiresText document table key = requiresText other table key :=
  congrArg (fun v => Requirement.mk (v.all fun u => (trimmed? u).isSome) _)
    (h.keys (table, key) hkey)

theorem requiresFileName_eq (key : Text) (hkey : (("output" : Text), key) ∈ Settings.keys) :
    requiresFileName document key = requiresFileName other key := by
  rw [requiresFileName, requiresFileName, h.givenText?_eq "output" key hkey]

theorem requirements_eq : requirements document = requirements other := by
  unfold requirements
  rw [h.requiresTable_eq "schema" (by decide),
    h.requiresTable_eq "output" (by decide),
    h.requiresTable_eq "documentation" (by decide),
    h.requiresText_eq "schema" "path" (by decide),
    h.requiresText_eq "output" "directory" (by decide),
    h.requiresText_eq "output" "html" (by decide),
    h.requiresFileName_eq "html" (by decide),
    h.requiresText_eq "output" "markdown" (by decide),
    h.requiresFileName_eq "markdown" (by decide),
    h.requiresText_eq "documentation" "title" (by decide)]

theorem given_eq : given document = given other := by
  unfold given
  rw [h.givenText?_eq "schema" "path" (by decide),
    h.givenText?_eq "output" "directory" (by decide),
    h.givenText?_eq "output" "html" (by decide),
    h.givenText?_eq "output" "markdown" (by decide),
    h.givenText?_eq "documentation" "title" (by decide)]

end SameSettings

/-! ## Settings files -/

theorem loadFile_eq {p : Path} {w : World} {bytes : Bytes} {t : Text} {document : Toml.Entries}
    (hbytes : w.files.read p = .ok bytes) (hdecode : Utf8.decode bytes = .ok t)
    (hdocument : Toml.read t = .ok document) :
    loadFile p w =
      Run.ofExcept .settings (checked (requirements document) (given document)) w := by
  have hread : Run.readFile p w = .ok t w :=
    Run.readFile_eq_ok_iff.mpr ⟨⟨bytes, hbytes, hdecode⟩, rfl⟩
  rw [loadFile, Run.bind_of_ok hread, ofText, hdocument]
  dsimp only
  rw [ofDocument_eq]
  cases checked (requirements document) (given document) <;> rfl

theorem isFile_defaultFile (fs : FileSystem) : ∃ found, fs.isFile defaultFile = .ok found := by
  rw [FileSystem.isFile, FileSystem.ask, resolve_defaultFile]
  cases fs.find? (fs.current ++ [defaultFile.name]) with
  | none => exact ⟨_, rfl⟩
  | some node => cases node <;> exact ⟨_, rfl⟩

theorem load_standard_of_isFile {w : World} (h : w.files.isFile defaultFile = .ok true) :
    load .standard w = load (.named defaultFile) w := by
  have hask : Run.ask (fun fs => fs.isFile defaultFile) w = .ok true w :=
    Run.ask_eq_ok_iff.mpr ⟨h, rfl⟩
  exact Run.bind_of_ok hask _

theorem load_standard_of_not_isFile {w : World} (h : w.files.isFile defaultFile ≠ .ok true) :
    load .standard w = .ok {} w := by
  obtain ⟨found, hfound⟩ := isFile_defaultFile w.files
  cases found with
  | true => exact absurd hfound h
  | false =>
      have hask : Run.ask (fun fs => fs.isFile defaultFile) w = .ok false w :=
        Run.ask_eq_ok_iff.mpr ⟨hfound, rfl⟩
      exact Run.bind_of_ok hask _

/-- Settings are loaded from a file with a TOML document exactly if the document meets all
requirements, and then they are the ones that it gives.  Otherwise loading fails for the first
requirement that is violated.  Documents that say the same about settings are treated alike, and
without a named file the default one is read if it is a file, or else every setting has its
default. -/
theorem load_exact (w : World) :
    (∀ p bytes t document, w.files.read p = .ok bytes → Utf8.decode bytes = .ok t →
      Toml.read t = .ok document →
      (∀ settings v, load (.named p) w = .ok settings v ↔
        (∀ r ∈ requirements document, r.met) ∧ settings = given document ∧ v = w) ∧
      ∀ failure v, load (.named p) w = .error failure v ↔
        ∃ r, (requirements document).find? (fun r => !r.met) = some r ∧
          failure = .settings r.error ∧ v = w) ∧
    (∀ document other, SameSettings document other →
      requirements document = requirements other ∧ given document = given other) ∧
    (w.files.isFile defaultFile = .ok true → load .standard w = load (.named defaultFile) w) ∧
    (w.files.isFile defaultFile ≠ .ok true → load .standard w = .ok {} w) := by
  refine ⟨?_, fun _ _ h => ⟨h.requirements_eq, h.given_eq⟩, load_standard_of_isFile,
    load_standard_of_not_isFile⟩
  intro p bytes t document hbytes hdecode hdocument
  have hload : load (.named p) w =
      Run.ofExcept .settings (checked (requirements document) (given document)) w :=
    loadFile_eq hbytes hdecode hdocument
  rw [hload]
  constructor
  · intro settings v
    rw [Run.ofExcept_eq_ok, checked_eq_ok_iff, and_assoc, eq_comm (a := w)]
  · intro failure v
    rw [Run.ofExcept_eq_error]
    simp only [checked_eq_error_iff]
    constructor
    · rintro ⟨error, ⟨r, hr, rfl⟩, rfl, rfl⟩
      exact ⟨r, hr, rfl, rfl⟩
    · rintro ⟨r, hr, rfl, rfl⟩
      exact ⟨r.error, ⟨r, hr, rfl⟩, rfl, rfl⟩

def faultyText : Text :=
  "documentation = 1\n[output]\nhtml = \"a/b\"\nmarkdown = \" \""

def faultyFiles : FileSystem where
  nodes := [(["prisma-docs.toml"], .file (faultyText.flatMap Utf8.encodeOne))]

theorem exists_read_faultyText : ∃ document, Toml.read faultyText = .ok document := by
  have hread : (match Toml.read faultyText with
      | .ok _ => true
      | .error _ => false) = true := by
    decide +kernel
  cases h : Toml.read faultyText with
  | ok document => exact ⟨document, rfl⟩
  | error fault => simp [h] at hread

theorem load_exact_faulty :
    (∃ bytes document, faultyFiles.read defaultFile = .ok bytes ∧
      Utf8.decode bytes = .ok faultyText ∧ Toml.read faultyText = .ok document ∧
      (∀ settings v, load (.named defaultFile) { files := faultyFiles } = .ok settings v ↔
        (∀ r ∈ requirements document, r.met) ∧ settings = given document ∧
          v = { files := faultyFiles }) ∧
      ∀ failure v, load (.named defaultFile) { files := faultyFiles } = .error failure v ↔
        ∃ r, (requirements document).find? (fun r => !r.met) = some r ∧
          failure = .settings r.error ∧ v = { files := faultyFiles }) ∧
    (requirements [("other", .integer 1)] = requirements [] ∧
      given [("other", .integer 1)] = given []) ∧
    load .standard { files := faultyFiles } = load (.named defaultFile) { files := faultyFiles } ∧
    load .standard { files := {} } = .ok {} { files := {} } := by
  obtain ⟨document, hdocument⟩ := exists_read_faultyText
  have hdecode : Utf8.decode (faultyText.flatMap Utf8.encodeOne) = .ok faultyText := by
    decide +kernel
  have hsame : SameSettings [("other", .integer 1)] [] := by
    refine ⟨by decide, ?_⟩
    simp only [keys, List.forall_mem_cons]
    exact ⟨rfl, rfl, rfl, rfl, rfl, List.forall_mem_nil _⟩
  exact ⟨⟨_, document, rfl, hdecode, hdocument,
    (load_exact _).1 _ _ _ _ rfl hdecode hdocument⟩,
    (load_exact { files := {} }).2.1 _ _ hsame, (load_exact _).2.2.1 rfl,
    (load_exact _).2.2.2 (by decide)⟩

end SchemaDocs.Settings
