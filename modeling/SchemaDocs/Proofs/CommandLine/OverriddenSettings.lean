import SchemaDocs.Proofs.CommandLine.RunStages
import SchemaDocs.Proofs.FileSystem.OnePlace
/-!
# Settings that options take the place of

A run reads the settings file once, at its start, and of the settings it uses those that no option
takes the place of.  So two runs with the same options, on trees that differ in the content of one
file only, come to the same if that content shows in no setting that is used and the file is not
the schema.  They may fail, and they may write documents to the file itself.

* `Run.Respects`: runs that end alike on related files, closed under sequences;
* `Options.Overrides`: whether two settings are the same but for what options take the place of;
* `execute_overridden`: what two command lines come to.
-/

namespace SchemaDocs

open FileSystem (DiffersOnlyAt)

/-! ## Runs on related files -/

structure World.Related (R : FileSystem → FileSystem → Prop) (w x : World) : Prop where
  files : R w.files x.files
  log : x.log = w.log

namespace Run

variable {α β : Type} {R S : FileSystem → FileSystem → Prop}

/-- Whether two runs end with the same result or the same failure, in related worlds. -/
inductive SameEnd (R : FileSystem → FileSystem → Prop) :
    EStateM.Result Failure World α → EStateM.Result Failure World α → Prop where
  | ok (a : α) {w x : World} (h : w.Related R x) : SameEnd R (.ok a w) (.ok a x)
  | error (failure : Failure) {w x : World} (h : w.Related R x) :
      SameEnd R (.error failure w) (.error failure x)

theorem SameEnd.imp {first second : EStateM.Result Failure World α}
    (h : SameEnd R first second) (himp : ∀ fs gs, R fs gs → S fs gs) : SameEnd S first second := by
  cases h with
  | ok a h => exact .ok a ⟨himp _ _ h.files, h.log⟩
  | error failure h => exact .error failure ⟨himp _ _ h.files, h.log⟩

def Respects (R : FileSystem → FileSystem → Prop) (m : Run α) : Prop :=
  ∀ w x, w.Related R x → SameEnd R (m w) (m x)

theorem SameEnd.bind {m : Run α} {w x : World} (h : SameEnd R (m w) (m x)) {f : α → Run β}
    (hf : ∀ a, Respects R (f a)) : SameEnd R ((m >>= f) w) ((m >>= f) x) := by
  generalize hw : m w = first at h
  generalize hx : m x = second at h
  cases h with
  | ok a h =>
      rw [bind_of_ok hw, bind_of_ok hx]
      exact hf a _ _ h
  | error failure h =>
      rw [bind_of_error hw, bind_of_error hx]
      exact .error failure h

theorem respects_bind {m : Run α} {f : α → Run β} (hm : Respects R m)
    (hf : ∀ a, Respects R (f a)) : Respects R (m >>= f) :=
  fun w x h => (hm w x h).bind hf

theorem respects_pure (a : α) : Respects R (pure a : Run α) :=
  fun _ _ h => .ok a h

theorem respects_throw (failure : Failure) : Respects R (throw failure : Run α) :=
  fun _ _ h => .error failure h

theorem respects_log (level : Level) (text : Text) : Respects R (log level text) :=
  fun _ _ h => .ok () ⟨h.files, congrArg (· ++ [⟨level, text⟩]) h.log⟩

theorem respects_ofExcept {ε : Type} (failure : ε → Failure) (result : Except ε α) :
    Respects R (ofExcept failure result) := by
  cases result with
  | ok a => exact respects_pure a
  | error error => exact respects_throw (failure error)

theorem respects_ask {question : FileSystem → Except FileError α}
    (h : ∀ fs gs, R fs gs → question gs = question fs) : Respects R (ask question) := by
  intro w x hrelated
  unfold ask
  rw [h _ _ hrelated.files]
  cases question w.files with
  | ok a => exact .ok a hrelated
  | error error => exact .error _ hrelated

theorem respects_readFile {p : Path} (h : ∀ fs gs, R fs gs → gs.read p = fs.read p) :
    Respects R (readFile p) :=
  respects_bind (respects_ask h) fun _ => respects_ofExcept _ _

section OnePlace

variable {place : Location}

theorem respects_makeDirectories (p : Path) (mayExist : Bool) :
    Respects (DiffersOnlyAt place) (makeDirectories p mayExist) := by
  intro w x h
  have hmade := h.files.makeDirectories p mayExist
  unfold makeDirectories change
  dsimp only
  generalize w.files.makeDirectories p mayExist = first at hmade ⊢
  generalize x.files.makeDirectories p mayExist = second at hmade ⊢
  obtain ⟨files, _⟩ := first
  obtain ⟨files', outcome⟩ := second
  obtain ⟨hfiles, rfl⟩ := hmade
  cases outcome with
  | ok _ => exact .ok () ⟨hfiles, h.log⟩
  | error error => exact .error _ ⟨hfiles, h.log⟩

/-- A file is written alike wherever it is: what was there before does not matter. -/
theorem respects_writeFile (p : Path) (t : Text) :
    Respects (DiffersOnlyAt place) (writeFile p t) := by
  intro w x h
  have hopen := h.files.openForWriting p
  have hplace : ∀ opened l, w.files.openForWriting p = .ok (opened, l) → l ≠ [] :=
    fun _ _ heq => (FileSystem.openForWriting_eq_ok heq).1
  unfold writeFile
  generalize w.files.openForWriting p = first at hopen hplace ⊢
  generalize x.files.openForWriting p = second at hopen ⊢
  cases hopen with
  | error error => exact .error _ h
  | @ok first second halike =>
      obtain ⟨opened, _⟩ := first
      obtain ⟨opened', l⟩ := second
      obtain ⟨hfiles, rfl⟩ := halike
      dsimp only
      cases Utf8.encode t with
      | error fault => exact .error _ ⟨hfiles, h.log⟩
      | ok bytes => exact .ok () ⟨hfiles.set (hplace _ _ rfl) _, h.log⟩

end OnePlace

end Run

open Run (Respects respects_bind respects_pure respects_throw respects_log respects_ofExcept
  respects_ask respects_readFile respects_makeDirectories respects_writeFile)

/-! ## The stages of a run -/

section Loading

variable {R : FileSystem → FileSystem → Prop}

theorem Schema.respects_load {p : Path} (hfile : ∀ fs gs, R fs gs → gs.isFile p = fs.isFile p)
    (hread : ∀ fs gs, R fs gs → gs.read p = fs.read p) : Respects R (load p) := by
  refine respects_bind (respects_log _ _) fun _ =>
    respects_bind (respects_ask hfile) fun found => ?_
  cases found with
  | true => exact respects_bind (respects_readFile hread) fun _ => respects_ofExcept _ _
  | false => exact respects_throw _

theorem DocumentPair.respects_build (title : Text) (raw : Value) :
    Respects R (build title raw) := by
  have hmodels : Respects R (Schema.models raw) :=
    respects_bind (respects_ofExcept _ _) fun _ =>
      respects_bind (respects_log _ _) fun _ => respects_pure _
  exact respects_bind hmodels fun _ => respects_ofExcept _ _

end Loading

namespace DocumentPair

variable {place : Location}

theorem respects_prepareDirectory (directory : Path) :
    Respects (DiffersOnlyAt place) (prepareDirectory directory) := by
  refine respects_bind (respects_ask fun _ _ h => h.contains directory) fun found => ?_
  cases found with
  | true => exact respects_pure ()
  | false =>
      exact respects_bind (respects_makeDirectories directory false) fun _ => respects_log _ _

theorem respects_prepareTargets (targets : List (Path × Text)) :
    Respects (DiffersOnlyAt place) (prepareTargets targets) := by
  induction targets with
  | nil => exact respects_pure ()
  | cons t rest ih => exact respects_bind (respects_makeDirectories _ true) fun _ => ih

theorem respects_writeTargets (targets : List (Path × Text)) :
    Respects (DiffersOnlyAt place) (writeTargets targets) := by
  induction targets with
  | nil => exact respects_pure []
  | cons t rest ih =>
      exact respects_bind (respects_writeFile t.1 t.2) fun _ =>
        respects_bind (respects_log _ _) fun _ => respects_bind ih fun _ => respects_pure _

theorem respects_write (d : DocumentPair) (directory : Path)
    (htmlFile markdownFile : Option Text) :
    Respects (DiffersOnlyAt place) (d.write directory htmlFile markdownFile) :=
  respects_bind (respects_prepareDirectory directory) fun _ =>
    respects_bind (respects_prepareTargets _) fun _ => respects_writeTargets _

end DocumentPair

/-! ## Command lines -/

namespace CommandLine

/-- Whether two settings are the same but for those that options take the place of.  An empty title
takes the place of none. -/
structure Options.Overrides (o : Options) (s t : Settings) : Prop where
  schema : o.schema = none → t.schema = s.schema
  directory : o.output = none → t.directory = s.directory
  title : o.title = none ∨ o.title = some [] → t.title = s.title
  htmlFile : t.htmlFile = s.htmlFile
  markdownFile : t.markdownFile = s.markdownFile

theorem Options.Overrides.titleFor {o : Options} {s t : Settings} (h : o.Overrides s t) :
    o.titleFor t = o.titleFor s := by
  unfold Options.titleFor
  cases htitle : o.title with
  | none => exact h.title (.inl htitle)
  | some title =>
      cases title with
      | nil => exact h.title (.inr htitle)
      | cons c rest => rfl

theorem getD_eq_getD {α : Type} {option : Option α} {a b : α} (h : option = none → b = a) :
    option.getD b = option.getD a := by
  cases option with
  | none => exact h rfl
  | some c => rfl

variable {i : Invocation} {fs gs : FileSystem} {place : Location} {s t : Settings} {w x : World}

theorem Invocation.sameEnd_run (hdiffers : DiffersOnlyAt place fs gs)
    (hs : Settings.load i.options.config { files := fs } = .ok s w)
    (ht : Settings.load i.options.config { files := gs } = .ok t x)
    (hoverrides : i.options.Overrides s t)
    (hschema : fs.placeOf? (i.schemaPath s) ≠ some place) :
    Run.SameEnd (DiffersOnlyAt place) (i.run { files := fs }) (i.run { files := gs }) := by
  obtain rfl := Settings.load_eq_ok_world hs
  obtain rfl := Settings.load_eq_ok_world ht
  rw [Invocation.run, Run.bind_of_ok hs, Run.bind_of_ok ht, hoverrides.titleFor,
    hoverrides.htmlFile, hoverrides.markdownFile, getD_eq_getD hoverrides.schema,
    getD_eq_getD hoverrides.directory]
  -- The schema file is the same in both trees when it is read, but it may be written later.
  let Reads : FileSystem → FileSystem → Prop := fun fs gs =>
    DiffersOnlyAt place fs gs ∧ gs.read (i.schemaPath s) = fs.read (i.schemaPath s)
  have hload : Respects Reads (Schema.load (i.schemaPath s)) :=
    Schema.respects_load (fun _ _ h => h.1.isFile _) fun _ _ h => h.2
  have hloaded := (hload { files := fs } { files := gs }
    ⟨⟨hdiffers, hdiffers.read hschema⟩, rfl⟩).imp fun _ _ h => h.1
  refine hloaded.bind fun raw => respects_bind (DocumentPair.respects_build _ raw) fun d => ?_
  exact respects_bind (d.respects_write _ _ _) fun _ => respects_pure _

/-- Options override settings completely.  Two runs of a command line, on files that differ in what
one file holds, such as the settings file, come to the same if the options of the command line take
the place of all settings that differ, and that file is not the schema file: the same outcome, be it
a success or a failure, and the same log.  The files that they leave differ in that file at most. -/
theorem execute_overridden {arguments : List Text} (hparse : parse arguments = .ok (.generate i))
    (hdiffers : DiffersOnlyAt place fs gs)
    (hs : Settings.load i.options.config { files := fs } = .ok s w)
    (ht : Settings.load i.options.config { files := gs } = .ok t x)
    (hoverrides : i.options.Overrides s t)
    (hschema : fs.placeOf? (i.schemaPath s) ≠ some place) :
    (execute arguments gs).1 = (execute arguments fs).1 ∧
      (Run.final i.run { files := gs }).log = (Run.final i.run { files := fs }).log ∧
      DiffersOnlyAt place (execute arguments fs).2 (execute arguments gs).2 := by
  have hend := Invocation.sameEnd_run hdiffers hs ht hoverrides hschema
  simp only [execute, hparse, Invocation.execute, Run.final]
  generalize i.run { files := fs } = first at hend ⊢
  generalize i.run { files := gs } = second at hend ⊢
  cases hend with
  | ok _ h =>
      dsimp only
      rw [h.log]
      exact ⟨rfl, rfl, h.files⟩
  | error failure h =>
      dsimp only
      rw [h.log]
      split
      · exact ⟨rfl, rfl, h.files⟩
      · exact ⟨rfl, rfl, h.files⟩

/-- The current directory with an empty schema, and with settings of a title that call the Markdown
document by the name of the settings file. -/
def titledFiles (title : String) : FileSystem where
  nodes := [(["prisma"], .directory),
    (["prisma", "dmmf.json"], .file ((Text.ofString "[]").flatMap Utf8.encodeOne)),
    (["prisma-docs.toml"], .file (List.flatMap Utf8.encodeOne
      (Text.ofString "[output]\nmarkdown = \"prisma-docs.toml\"\n[documentation]\ntitle = \"" ++
        Text.ofString title ++ Text.ofString "\"")))]

theorem differsOnlyAt_titledFiles (title other : String) :
    DiffersOnlyAt ["prisma-docs.toml"] (titledFiles title) (titledFiles other) where
  current := rfl
  others := by
    intro l hl
    simp only [titledFiles, FileSystem.find?, FileSystem.nodeAt?, if_neg (Ne.symm hl)]
  sameKind := .files _ _

/-- A command line with a title and a directory.  Its document is written to the settings file. -/
def titledArguments : List Text :=
  ["gen-markdown", "--output", ".", "--title", "A title"]

def titledInvocation : Invocation where
  verbose := false
  command := .markdown
  options := { output := some (.ofText "."), title := some "A title" }

theorem execute_overridden_titled :
    parse titledArguments = .ok (.generate titledInvocation) ∧
      ∃ s t w x, Settings.load .standard { files := titledFiles "One" } = .ok s w ∧
        Settings.load .standard { files := titledFiles "Two" } = .ok t x ∧ s.title ≠ t.title ∧
        (execute titledArguments (titledFiles "Two")).1 =
          (execute titledArguments (titledFiles "One")).1 ∧
        (Run.final titledInvocation.run { files := titledFiles "Two" }).log =
          (Run.final titledInvocation.run { files := titledFiles "One" }).log ∧
        DiffersOnlyAt ["prisma-docs.toml"] (execute titledArguments (titledFiles "One")).2
          (execute titledArguments (titledFiles "Two")).2 := by
  have hparse : parse titledArguments = .ok (.generate titledInvocation) := by rfl
  have hload : ∀ first second : EStateM.Result Failure World Settings,
      (match first, second with
        | .ok s _, .ok t _ => decide (s.schema = .ofText "prisma/dmmf.json" ∧ t.schema = s.schema ∧
            t.htmlFile = s.htmlFile ∧ t.markdownFile = s.markdownFile ∧ s.title ≠ t.title)
        | _, _ => false) = true →
      ∃ s t w x, first = .ok s w ∧ second = .ok t x ∧ s.schema = .ofText "prisma/dmmf.json" ∧
        t.schema = s.schema ∧ t.htmlFile = s.htmlFile ∧ t.markdownFile = s.markdownFile ∧
        s.title ≠ t.title := by
    intro first second h
    cases first with
    | error failure w => cases h
    | ok s w =>
        cases second with
        | error failure w => cases h
        | ok t x => exact ⟨s, t, w, x, rfl, rfl, of_decide_eq_true h⟩
  obtain ⟨s, t, w, x, hs, ht, hpath, hschema, hhtml, hmarkdown, htitle⟩ :=
    hload (Settings.load .standard { files := titledFiles "One" })
      (Settings.load .standard { files := titledFiles "Two" }) (by decide +kernel)
  have hoverrides : titledInvocation.options.Overrides s t :=
    ⟨fun _ => hschema, nofun, nofun, hhtml, hmarkdown⟩
  have hplace : (titledFiles "One").placeOf? (titledInvocation.schemaPath s) ≠
      some [Text.ofString "prisma-docs.toml"] := by
    rw [Invocation.schemaPath, show titledInvocation.options.schema = none from rfl,
      Option.getD_none, hpath]
    decide
  exact ⟨hparse, s, t, w, x, hs, ht, htitle, execute_overridden hparse
    (differsOnlyAt_titledFiles "One" "Two") hs ht hoverrides hplace⟩

end CommandLine

end SchemaDocs
