import SchemaDocs.CommandLine.Execution
import SchemaDocs.Proofs.DocumentPair
/-!
# Failed runs

An invocation comes in two parts.  The first one finds out what to write and makes the directories
for it, and keeps the files however it ends.  The second one writes.  So a run that fails has
changed a file exactly if its first part succeeds and writing the first document changes its file.

* `sameFiles_execute_iff`: which of the runs that end with exit code 1 keep the files;
* `changed_execute_surrogate`: one that does not.
-/

namespace SchemaDocs.CommandLine

open FileSystem (SameFiles)
open Run (Keeps)
open Text (SurrogateFree)

/-! ## Before writing -/

section Looking

variable {R : FileSystem → FileSystem → Prop} [Std.Refl R] [IsTrans FileSystem R]

theorem keeps_loadSettingsFile (p : Path) : Keeps R (Settings.loadFile p) :=
  Run.keeps_bind (Run.keeps_readFile p) fun _ => Run.keeps_ofExcept _ _

theorem keeps_loadSettings (file : SettingsFile) : Keeps R (Settings.load file) := by
  cases file with
  | named p => exact keeps_loadSettingsFile p
  | standard =>
      refine Run.keeps_bind (Run.keeps_ask _) fun found => ?_
      cases found with
      | true => exact keeps_loadSettingsFile _
      | false => exact Run.keeps_pure _

theorem keeps_loadSchema (p : Path) : Keeps R (Schema.load p) := by
  refine Run.keeps_bind (Run.keeps_log _ _) fun _ => Run.keeps_bind (Run.keeps_ask _) ?_
  intro found
  cases found with
  | true => exact Run.keeps_bind (Run.keeps_readFile p) fun _ => Run.keeps_ofExcept _ _
  | false => exact Run.keeps_throw _

end Looking

/-- What an invocation does before it writes: it finds out what goes where, and makes the
directories. -/
def Invocation.prepare (i : Invocation) : Run (List (Path × Text)) := do
  let settings ← Settings.load i.options.config
  let raw ← Schema.load (i.options.schema.getD settings.schema)
  let documentation ← DocumentPair.build (i.options.titleFor settings) raw
  let directory := i.options.output.getD settings.directory
  let targets := documentation.targets directory
    (if i.command.wantsHtml then some settings.htmlFile else none)
    (if i.command.wantsMarkdown then some settings.markdownFile else none)
  DocumentPair.prepareDirectory directory
  DocumentPair.prepareTargets targets
  return targets

theorem Invocation.run_eq (i : Invocation) :
    i.run = (do
      let targets ← i.prepare
      let _ ← DocumentPair.writeTargets targets) := by
  simp [Invocation.run, Invocation.prepare, DocumentPair.write]

theorem Invocation.keeps_prepare (i : Invocation) : Keeps SameFiles i.prepare := by
  refine Run.keeps_bind (keeps_loadSettings _) fun settings => ?_
  refine Run.keeps_bind (keeps_loadSchema _) fun raw => ?_
  refine Run.keeps_bind (DocumentPair.keeps_build _ raw) fun documentation => ?_
  refine Run.keeps_bind (DocumentPair.keeps_prepareDirectory _) fun _ => ?_
  refine Run.keeps_bind (DocumentPair.keeps_prepareTargets _) fun _ => ?_
  exact Run.keeps_pure _

theorem Invocation.prepare_eq_ok {i : Invocation} {w v : World} {targets : List (Path × Text)}
    (h : i.prepare w = .ok targets v) :
    ∃ title models documentation directory htmlFile markdownFile,
      DocumentPair.ofModels title models = .ok documentation ∧
      targets = documentation.targets directory htmlFile markdownFile := by
  obtain ⟨settings, _, -, h⟩ := Run.bind_eq_ok.mp h
  obtain ⟨raw, _, -, h⟩ := Run.bind_eq_ok.mp h
  obtain ⟨documentation, _, hbuild, h⟩ := Run.bind_eq_ok.mp h
  obtain ⟨_, _, -, h⟩ := Run.bind_eq_ok.mp h
  obtain ⟨_, _, -, h⟩ := Run.bind_eq_ok.mp h
  cases h
  obtain ⟨models, _, -, hbuild⟩ := Run.bind_eq_ok.mp hbuild
  obtain ⟨hmodels, -⟩ := Run.ofExcept_eq_ok.mp hbuild
  exact ⟨_, models, documentation, _, _, _, hmodels, rfl⟩

/-! ## Failures -/

/-- Whether an invocation gets as far as writing, and changes a file with its first document. -/
def Invocation.ChangesFirst (i : Invocation) (files : FileSystem) : Prop :=
  ∃ targets w, i.prepare { files } = .ok targets w ∧ DocumentPair.ChangesFirst w.files targets

theorem Invocation.sameFiles_run_iff {i : Invocation} {files : FileSystem} {failure : Failure}
    {v : World} (h : i.run { files } = .error failure v) :
    SameFiles files v.files ↔ ¬ i.ChangesFirst files := by
  rw [Invocation.run_eq] at h
  rcases Run.bind_eq_error.mp h with hprepare | ⟨targets, w, hprepare, hwrite⟩
  · refine iff_of_true (Run.keeps_of_error i.keeps_prepare hprepare) ?_
    rintro ⟨targets, w, hok, -⟩
    rw [hprepare] at hok
    cases hok
  · have hkept : SameFiles files w.files := Run.keeps_of_ok i.keeps_prepare hprepare
    have hfails : DocumentPair.writeTargets targets w = .error failure v := by
      rcases Run.bind_eq_error.mp hwrite with hwrite | ⟨_, _, -, hend⟩
      · exact hwrite
      · cases hend
    have hchanges : i.ChangesFirst files ↔ DocumentPair.ChangesFirst w.files targets := by
      constructor
      · rintro ⟨others, u, hok, hfirst⟩
        rw [hprepare] at hok
        cases hok
        exact hfirst
      · exact fun hfirst => ⟨targets, w, hprepare, hfirst⟩
    obtain ⟨title, models, d, directory, htmlFile, markdownFile, hd, rfl⟩ := prepare_eq_ok hprepare
    rw [hchanges, ← DocumentPair.sameFiles_writeTargets_iff
      (d.length_targets_le directory htmlFile markdownFile)
      (DocumentPair.targets_pairwise hd directory htmlFile markdownFile) hfails]
    exact ⟨hkept.symm.trans, hkept.trans⟩

/-- The exit code of an outcome, unless a failure took the place of the report. -/
def exitCode? (outcome : Except Failure Report) : Option Nat :=
  outcome.toOption.map Report.exitCode

/-- A command line that ends with exit code 1 keeps the files, unless its invocation comes to
writing and changes a file with its first document: the failure comes too late then, while this
document is written or the other one. -/
theorem sameFiles_execute_iff {arguments : List Text} {files : FileSystem}
    (hexit : exitCode? (execute arguments files).1 = some 1) :
    ∃ i, parse arguments = .ok (.generate i) ∧
      (SameFiles files (execute arguments files).2 ↔ ¬ i.ChangesFirst files) := by
  cases hparse : parse arguments with
  | error refusal => simp [execute, hparse, exitCode?, Except.toOption] at hexit
  | ok request =>
      cases request with
      | help text => simp [execute, hparse, exitCode?, Except.toOption] at hexit
      | generate i =>
          refine ⟨i, rfl, ?_⟩
          simp only [execute, hparse, Invocation.execute] at hexit ⊢
          cases hrun : i.run { files } with
          | ok _ w => simp [hrun, exitCode?, Except.toOption] at hexit
          | error failure w =>
              have hfiles := Invocation.sameFiles_run_iff hrun
              cases hreported : failure.isReported with
              | true => simpa [hreported] using hfiles
              | false => simpa [hreported] using hfiles

/-- The current directory with a schema of one model, which is named by a surrogate. -/
def surrogateFiles : FileSystem where
  nodes := [(["prisma"], .directory), (["prisma", "dmmf.json"],
    .file ((Text.ofString "[\x7b\"name\":\"\\ud800\",\"fields\":[]\x7d]").flatMap Utf8.encodeOne))]

theorem sameFiles_execute_iff_surrogate :
    exitCode? (execute ["gen-markdown"] surrogateFiles).1 = some 1 ∧
      ∃ i, parse ["gen-markdown"] = .ok (.generate i) ∧
        (SameFiles surrogateFiles (execute ["gen-markdown"] surrogateFiles).2 ↔
          ¬ i.ChangesFirst surrogateFiles) := by
  have hexit : exitCode? (execute ["gen-markdown"] surrogateFiles).1 = some 1 := by decide +kernel
  exact ⟨hexit, sameFiles_execute_iff hexit⟩

/-- Its document has no bytes, so the run fails and leaves an empty file. -/
theorem changed_execute_surrogate :
    exitCode? (execute ["gen-markdown"] surrogateFiles).1 = some 1 ∧
      ¬ SameFiles surrogateFiles (execute ["gen-markdown"] surrogateFiles).2 := by
  have hafter : (execute ["gen-markdown"] surrogateFiles).2.find?
      ["docs", "prisma_schema_documentation.md"] = some (.file []) := by decide +kernel
  have hbefore : surrogateFiles.find? ["docs", "prisma_schema_documentation.md"] = none := by
    decide +kernel
  refine ⟨by decide +kernel, fun hsame => ?_⟩
  rw [(hsame _ _).mp hafter] at hbefore
  cases hbefore

end SchemaDocs.CommandLine
