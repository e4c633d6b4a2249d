import SchemaDocs.Proofs.CommandLine.SuccessfulRun
import SchemaDocs.Proofs.Loading
import SchemaDocs.Proofs.WrittenTargets
/-!
# The stages of a run

A run that succeeds has three stages.  It loads the settings and the schema and builds the documents
from them, which changes no file; it makes the directory of the documents; and it puts the documents
there.  The first two stages are the same for all three commands, and the first one depends on the
bytes of two files only.

* `Invocation.builds_iff`: what the documents are built from;
* `Invocation.run_eq_ok_iff`: the stages, with the files and the log that they leave.
-/

namespace SchemaDocs

open FileSystem (IsDirectory KeepsDirectories KeepsFile SameFiles)
open SchemaDocs.Path (IsFileName)

/-! ## Preparing a directory -/

namespace DocumentPair

/-- Prepares the directory of the documents, and with it that of their files, which is the same. -/
def prepare (directory : Path) : Run Unit := do
  prepareDirectory directory
  Run.makeDirectories directory true

theorem prepare_of_isDirectory {directory : Path} {w : World}
    (h : w.files.IsDirectory directory) : prepare directory w = .ok () w := by
  rw [prepare, Run.bind_of_ok (prepareDirectory_of_isDirectory h)]
  exact Run.makeDirectories_of_isDirectory h

theorem isDirectory_of_prepare {directory : Path} {w u : World}
    (h : prepare directory w = .ok () u) : u.files.IsDirectory directory := by
  obtain ⟨_, x, -, hmade⟩ := Run.bind_eq_ok.mp h
  exact Run.isDirectory_of_makeDirectories hmade

theorem sameFiles_of_prepare {directory : Path} {w u : World}
    (h : prepare directory w = .ok () u) : SameFiles w.files u.files :=
  Run.keeps_of_ok (Run.keeps_bind (keeps_prepareDirectory directory) fun _ =>
    Run.keeps_makeDirectories directory true) h

theorem keepsDirectories_of_prepare {directory : Path} {w u : World}
    (h : prepare directory w = .ok () u) : KeepsDirectories w.files u.files := by
  have hfirst : Run.Keeps KeepsDirectories (prepareDirectory directory) := by
    refine Run.keeps_bind (Run.keeps_ask _) fun found => ?_
    cases found with
    | true => exact Run.keeps_pure ()
    | false =>
        exact Run.keeps_bind (Run.keepsDirectories_makeDirectories directory false) fun _ =>
          Run.keeps_log _ _
  exact Run.keeps_of_ok (Run.keeps_bind hfirst fun _ =>
    Run.keepsDirectories_makeDirectories directory true) h

theorem write_eq_ok_iff {d : DocumentPair} {directory : Path} {htmlFile markdownFile : Option Text}
    (hne : d.targets directory htmlFile markdownFile ≠ [])
    (hparent : ∀ t ∈ d.targets directory htmlFile markdownFile, t.1.parent = directory)
    {w v : World} {written : List Path} :
    d.write directory htmlFile markdownFile w = .ok written v ↔
      ∃ u puts, prepare directory w = .ok () u ∧
        List.Forall₂ u.files.Puts (d.targets directory htmlFile markdownFile) puts ∧
        written = (d.targets directory htmlFile markdownFile).map Prod.fst ∧
        v = { files := u.files.setFiles puts
              log := u.log ++
                (d.targets directory htmlFile markdownFile).map fun t => writtenLine t.1 } := by
  constructor
  · intro h
    obtain ⟨_, x, hfirst, h⟩ := Run.bind_eq_ok.mp h
    obtain ⟨_, u, hmade, h⟩ := Run.bind_eq_ok.mp h
    obtain ⟨puts, hputs, hwritten, hv⟩ := writeTargets_eq_ok_iff.mp h
    have hmade := (prepareTargets_eq_ok_iff hne hparent).mp hmade
    exact ⟨u, puts, Run.bind_eq_ok.mpr ⟨(), x, hfirst, hmade⟩, hputs, hwritten, hv⟩
  · rintro ⟨u, puts, hprepare, hputs, hwritten, hv⟩
    obtain ⟨_, x, hfirst, hmade⟩ := Run.bind_eq_ok.mp hprepare
    have hmade := (prepareTargets_eq_ok_iff hne hparent).mpr hmade
    exact Run.bind_eq_ok.mpr ⟨(), x, hfirst, Run.bind_eq_ok.mpr
      ⟨(), u, hmade, writeTargets_eq_ok_iff.mpr ⟨puts, hputs, hwritten, hv⟩⟩⟩

end DocumentPair

namespace CommandLine.Invocation

variable {i j : Invocation} {settings : Settings} {d : DocumentPair} {w u v : World}

/-! ## Building -/

def schemaPath (i : Invocation) (settings : Settings) : Path :=
  i.options.schema.getD settings.schema

def directory (i : Invocation) (settings : Settings) : Path :=
  i.options.output.getD settings.directory

theorem builds_iff :
    i.Builds w settings d ↔ Settings.load i.options.config w = .ok settings w ∧
      ∃ bytes t raw models, w.files.read (i.schemaPath settings) = .ok bytes ∧
        Utf8.decode bytes = .ok t ∧ Schema.ofText t = .ok raw ∧
        Model.listOfValue raw = .ok models ∧
        DocumentPair.ofModels (i.options.titleFor settings) models = .ok d := by
  constructor
  · rintro ⟨raw, w₁, w₂, w₃, hsettings, hraw, hbuild⟩
    obtain rfl := Settings.load_eq_ok_world hsettings
    obtain ⟨⟨bytes, t, hbytes, hdecode, hofText⟩, rfl⟩ := Schema.load_eq_ok_iff.mp hraw
    obtain ⟨models, hmodels, hd, -⟩ := DocumentPair.build_eq_ok_iff.mp hbuild
    exact ⟨hsettings, bytes, t, raw, models, hbytes, hdecode, hofText, hmodels, hd⟩
  · rintro ⟨hsettings, bytes, t, raw, models, hbytes, hdecode, hofText, hmodels, hd⟩
    exact ⟨raw, w, _, _, hsettings,
      Schema.load_eq_ok_iff.mpr ⟨⟨bytes, t, hbytes, hdecode, hofText⟩, rfl⟩,
      DocumentPair.build_eq_ok_iff.mpr ⟨models, hmodels, hd, rfl⟩⟩

theorem Builds.unique {settings' : Settings} {d' : DocumentPair} (h : i.Builds w settings d)
    (h' : i.Builds w settings' d') : settings = settings' ∧ d = d' := by
  obtain ⟨raw, w₁, w₂, w₃, hsettings, hraw, hbuild⟩ := h
  obtain ⟨raw', w₁', w₂', w₃', hsettings', hraw', hbuild'⟩ := h'
  rw [hsettings] at hsettings'
  cases hsettings'
  rw [hraw] at hraw'
  cases hraw'
  rw [hbuild] at hbuild'
  cases hbuild'
  exact ⟨rfl, rfl⟩

/-- The command does not matter for what is built, and of the files only those of the settings and
of the schema do. -/
theorem Builds.again (h : i.Builds w settings d) (hoptions : j.options = i.options)
    (hsettings : Settings.load i.options.config u = .ok settings u)
    (hschema : KeepsFile (i.schemaPath settings) w.files u.files) : j.Builds u settings d := by
  obtain ⟨-, bytes, t, raw, models, hbytes, hrest⟩ := builds_iff.mp h
  have hpath : j.schemaPath settings = i.schemaPath settings := by
    rw [schemaPath, schemaPath, hoptions]
  refine builds_iff.mpr ⟨?_, bytes, t, raw, models, ?_, ?_⟩
  · rw [hoptions, hsettings]
  · rw [hpath]
    exact hschema bytes hbytes
  · rw [hoptions]
    exact hrest

/-! ## The stages -/

/-- A world with the lines of the log that a run leaves before it prepares the directory. -/
def ready (i : Invocation) (settings : Settings) (d : DocumentPair) (w : World) : World :=
  { w with
    log := w.log ++ [Schema.searchLine (i.schemaPath settings), Schema.countLine d.models] }

def targets (i : Invocation) (settings : Settings) (d : DocumentPair) : List (Path × Text) :=
  (if i.command.wantsHtml then [(i.htmlPath settings, d.html)] else []) ++
    (if i.command.wantsMarkdown then [(i.markdownPath settings, d.markdown)] else [])

theorem targets_ne_nil (i : Invocation) (settings : Settings) (d : DocumentPair) :
    i.targets settings d ≠ [] := by
  unfold targets
  cases i.command <;> simp [Command.wantsHtml, Command.wantsMarkdown]

theorem targets_eq (hnames : settings.FileNames) :
    d.targets (i.directory settings)
      (if i.command.wantsHtml then some settings.htmlFile else none)
      (if i.command.wantsMarkdown then some settings.markdownFile else none) =
    i.targets settings d := by
  unfold DocumentPair.targets targets
  have hpart : ∀ (wanted : Bool) {name : Text}, IsFileName name → ∀ document,
      DocumentPair.target (i.directory settings) (if wanted then some name else none) document =
        if wanted then [((i.directory settings).join (.ofText name), document)] else [] := by
    intro wanted name hname document
    cases wanted with
    | false => rfl
    | true => exact DocumentPair.target_of_fileName hname _ document
  rw [hpart _ hnames.html, hpart _ hnames.markdown]
  rfl

def outputs (i : Invocation) (settings : Settings) : List Path :=
  (if i.command.wantsHtml then [i.htmlPath settings] else []) ++
    (if i.command.wantsMarkdown then [i.markdownPath settings] else [])

theorem map_fst_targets : (i.targets settings d).map Prod.fst = i.outputs settings := by
  unfold targets outputs
  cases i.command <;> rfl

theorem exists_name_of_mem_outputs (hnames : settings.FileNames) {p : Path}
    (hp : p ∈ i.outputs settings) :
    ∃ name, (name = settings.htmlFile ∨ name = settings.markdownFile) ∧ IsFileName name ∧
      p = (i.directory settings).join (.ofText name) := by
  have hpart : ∀ {wanted : Bool} {path : Path}, p ∈ (if wanted then [path] else []) → p = path := by
    intro wanted path hp
    cases wanted with
    | false => exact absurd hp List.not_mem_nil
    | true => exact List.mem_singleton.mp hp
  rcases List.mem_append.mp hp with hp | hp
  · exact ⟨_, .inl rfl, hnames.html, hpart hp⟩
  · exact ⟨_, .inr rfl, hnames.markdown, hpart hp⟩

theorem parent_of_mem_targets (hnames : settings.FileNames) {t : Path × Text}
    (ht : t ∈ i.targets settings d) : t.1.parent = i.directory settings := by
  have hpath : t.1 ∈ i.outputs settings := by
    rw [← map_fst_targets (d := d)]
    exact List.mem_map_of_mem ht
  obtain ⟨name, -, hname, heq⟩ := exists_name_of_mem_outputs hnames hpath
  rw [heq, Path.parent_join_fileName hname]

theorem models_eq_of_ofModels {title : Text} {models : List Model}
    (h : DocumentPair.ofModels title models = .ok d) : d.models = models := by
  obtain ⟨_, _, _, -, -, -, rfl⟩ := DocumentPair.ofModels_eq_ok h
  rfl

def write (i : Invocation) (settings : Settings) (d : DocumentPair) : Run (List Path) :=
  d.write (i.directory settings) (if i.command.wantsHtml then some settings.htmlFile else none)
    (if i.command.wantsMarkdown then some settings.markdownFile else none)

theorem write_eq_ok_iff (hnames : settings.FileNames) {written : List Path} :
    i.write settings d w = .ok written v ↔
      ∃ u puts, DocumentPair.prepare (i.directory settings) w = .ok () u ∧
        List.Forall₂ u.files.Puts (i.targets settings d) puts ∧ written = i.outputs settings ∧
        v = { files := u.files.setFiles puts
              log := u.log ++ (i.outputs settings).map DocumentPair.writtenLine } := by
  have htargets := targets_eq (i := i) (d := d) hnames
  have hne : d.targets (i.directory settings)
      (if i.command.wantsHtml then some settings.htmlFile else none)
      (if i.command.wantsMarkdown then some settings.markdownFile else none) ≠ [] := by
    rw [htargets]
    exact i.targets_ne_nil settings d
  rw [write, DocumentPair.write_eq_ok_iff hne, htargets, map_fst_targets]
  · rw [← map_fst_targets (d := d), List.map_map]
    rfl
  · rw [htargets]
    exact fun t ht => parent_of_mem_targets hnames ht

theorem eq_ready_of_build {raw : Value} {w₁ w₂ w₃ : World}
    (hsettings : Settings.load i.options.config w = .ok settings w₁)
    (hraw : Schema.load (i.schemaPath settings) w₁ = .ok raw w₂)
    (hbuild : DocumentPair.build (i.options.titleFor settings) raw w₂ = .ok d w₃) :
    w₃ = i.ready settings d w := by
  obtain rfl := Settings.load_eq_ok_world hsettings
  obtain ⟨-, rfl⟩ := Schema.load_eq_ok_iff.mp hraw
  obtain ⟨models, -, hd, rfl⟩ := DocumentPair.build_eq_ok_iff.mp hbuild
  rw [ready, models_eq_of_ofModels hd]
  simp only [List.append_assoc, List.cons_append, List.nil_append]

theorem run_eq_ok_write_iff :
    i.run w = .ok () v ↔ ∃ settings d written, i.Builds w settings d ∧
      i.write settings d (i.ready settings d w) = .ok written v := by
  constructor
  · intro h
    obtain ⟨settings, w₁, hsettings, h⟩ := Run.bind_eq_ok.mp h
    obtain ⟨raw, w₂, hraw, h⟩ := Run.bind_eq_ok.mp h
    obtain ⟨d, w₃, hbuild, h⟩ := Run.bind_eq_ok.mp h
    obtain ⟨written, x, hwrite, h⟩ := Run.bind_eq_ok.mp h
    cases h
    rw [eq_ready_of_build hsettings hraw hbuild] at hwrite
    exact ⟨settings, d, written, ⟨raw, w₁, w₂, w₃, hsettings, hraw, hbuild⟩, hwrite⟩
  · rintro ⟨settings, d, written, ⟨raw, w₁, w₂, w₃, hsettings, hraw, hbuild⟩, hwrite⟩
    rw [← eq_ready_of_build hsettings hraw hbuild] at hwrite
    exact Run.bind_eq_ok.mpr ⟨settings, w₁, hsettings, Run.bind_eq_ok.mpr ⟨raw, w₂, hraw,
      Run.bind_eq_ok.mpr ⟨d, w₃, hbuild, Run.bind_eq_ok.mpr ⟨written, v, hwrite, rfl⟩⟩⟩⟩

/-- A run succeeds exactly if it builds its documents, prepares their directory and can put all of
them there. -/
theorem run_eq_ok_iff :
    i.run w = .ok () v ↔
      ∃ settings d u puts, i.Builds w settings d ∧
        DocumentPair.prepare (i.directory settings) (i.ready settings d w) = .ok () u ∧
        List.Forall₂ u.files.Puts (i.targets settings d) puts ∧
        v = { files := u.files.setFiles puts
              log := u.log ++ (i.outputs settings).map DocumentPair.writtenLine } := by
  rw [run_eq_ok_write_iff]
  constructor
  · rintro ⟨settings, d, written, hbuilds, hwrite⟩
    obtain ⟨u, puts, hprepare, hputs, -, hv⟩ := (write_eq_ok_iff hbuilds.fileNames).mp hwrite
    exact ⟨settings, d, u, puts, hbuilds, hprepare, hputs, hv⟩
  · rintro ⟨settings, d, u, puts, hbuilds, hprepare, hputs, hv⟩
    exact ⟨settings, d, i.outputs settings, hbuilds,
      (write_eq_ok_iff hbuilds.fileNames).mpr ⟨u, puts, hprepare, hputs, rfl, hv⟩⟩

end CommandLine.Invocation

end SchemaDocs
