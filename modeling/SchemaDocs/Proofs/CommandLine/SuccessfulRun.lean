import SchemaDocs.Proofs.CommandLine.FailedRun
import SchemaDocs.Proofs.Settings
import SchemaDocs.Proofs.WrittenDocuments
/-!
# Successful runs

A run for both documents that ends with exit code 0 has written the Markdown document and the page,
in files that are named by its settings.  Nothing keeps the settings from using one name for both,
and then the page is lost.

* `exitCode_zero_of_prepare`: when a run ends so;
* `holds_execute_both`: what the two files hold after a run;
* `lost_execute_sameName`: a run that loses the page.
-/

namespace SchemaDocs.CommandLine

open FileSystem (Holds)
open Text (SurrogateFree)

def Invocation.htmlPath (i : Invocation) (settings : Settings) : Path :=
  (i.options.output.getD settings.directory).join (.ofText settings.htmlFile)

def Invocation.markdownPath (i : Invocation) (settings : Settings) : Path :=
  (i.options.output.getD settings.directory).join (.ofText settings.markdownFile)

/-- Whether an invocation that starts from a world loads some settings, and builds a pair of
documents from them and the schema that they lead to. -/
def Invocation.Builds (i : Invocation) (w : World) (settings : Settings) (d : DocumentPair) :
    Prop :=
  ∃ raw w₁ w₂ w₃, Settings.load i.options.config w = .ok settings w₁ ∧
    Schema.load (i.options.schema.getD settings.schema) w₁ = .ok raw w₂ ∧
    DocumentPair.build (i.options.titleFor settings) raw w₂ = .ok d w₃

theorem Invocation.Builds.fileNames {i : Invocation} {w : World} {settings : Settings}
    {d : DocumentPair} (h : i.Builds w settings d) : settings.FileNames := by
  obtain ⟨raw, w₁, w₂, w₃, hsettings, -, -⟩ := h
  exact Settings.fileNames_of_load hsettings

theorem Invocation.Builds.ofModels {i : Invocation} {w : World} {settings : Settings}
    {d : DocumentPair} (h : i.Builds w settings d) :
    ∃ title models, DocumentPair.ofModels title models = .ok d := by
  obtain ⟨raw, w₁, w₂, w₃, -, -, hbuild⟩ := h
  obtain ⟨models, _, -, hmodels⟩ := Run.bind_eq_ok.mp hbuild
  exact ⟨_, models, (Run.ofExcept_eq_ok.mp hmodels).1⟩

theorem Invocation.run_eq_ok {i : Invocation} {w v : World} (h : i.run w = .ok () v) :
    ∃ settings d u written, i.Builds w settings d ∧
      d.write (i.options.output.getD settings.directory)
        (if i.command.wantsHtml then some settings.htmlFile else none)
        (if i.command.wantsMarkdown then some settings.markdownFile else none) u =
        .ok written v := by
  obtain ⟨settings, w₁, hsettings, h⟩ := Run.bind_eq_ok.mp h
  obtain ⟨raw, w₂, hraw, h⟩ := Run.bind_eq_ok.mp h
  obtain ⟨d, w₃, hbuild, h⟩ := Run.bind_eq_ok.mp h
  obtain ⟨written, w₄, hwrite, h⟩ := Run.bind_eq_ok.mp h
  cases h
  exact ⟨settings, d, w₃, written, ⟨raw, w₁, w₂, w₃, hsettings, hraw, hbuild⟩, hwrite⟩

theorem Invocation.holds_run_both {i : Invocation} (hboth : i.command = .both) {w v : World}
    (hrun : i.run w = .ok () v) :
    ∃ settings d, i.Builds w settings d ∧
      v.files.Holds (i.markdownPath settings) d.markdown ∧
      (v.files.Holds (i.htmlPath settings) d.html ↔
        FileSystem.Name.listed settings.htmlFile ≠
          FileSystem.Name.listed settings.markdownFile) := by
  obtain ⟨settings, d, u, written, hbuilds, hwrite⟩ := Invocation.run_eq_ok hrun
  obtain ⟨title, models, hd⟩ := hbuilds.ofModels
  rw [hboth] at hwrite
  exact ⟨settings, d, hbuilds,
    DocumentPair.holds_write_both hd hbuilds.fileNames.html hbuilds.fileNames.markdown hwrite⟩

theorem run_of_exitCode_zero {arguments : List Text} {i : Invocation} {files : FileSystem}
    (hparse : parse arguments = .ok (.generate i))
    (hexit : exitCode? (execute arguments files).1 = some 0) :
    ∃ w, i.run { files } = .ok () w ∧ (execute arguments files).2 = w.files := by
  simp only [execute, hparse, Invocation.execute] at hexit ⊢
  cases hrun : i.run { files } with
  | ok _ w => exact ⟨w, rfl, rfl⟩
  | error failure w =>
      cases hreported : failure.isReported with
      | true => simp [hrun, hreported, exitCode?, Except.toOption] at hexit
      | false => simp [hrun, hreported, exitCode?, Except.toOption] at hexit

/-- A run that gets as far as writing ends with exit code 0, if the files can be opened and one of
the documents can be encoded. -/
theorem exitCode_zero_of_prepare {arguments : List Text} {i : Invocation} {files : FileSystem}
    (hparse : parse arguments = .ok (.generate i)) {targets : List (Path × Text)} {w : World}
    (hprepare : i.prepare { files } = .ok targets w)
    (hopen : ∀ t ∈ targets, w.files.CanOpen t.1) {t : Path × Text} (ht : t ∈ targets)
    (hfree : SurrogateFree t.2) : exitCode? (execute arguments files).1 = some 0 := by
  obtain ⟨title, models, d, directory, htmlFile, markdownFile, hd, rfl⟩ :=
    Invocation.prepare_eq_ok hprepare
  obtain ⟨written, v, hwrite⟩ := DocumentPair.exists_writeTargets_eq_ok fun u hu =>
    ⟨hopen u hu, DocumentPair.surrogateFree_of_mem_targets hd ht hu hfree⟩
  have hrun : i.run { files } = .ok () v := by
    rw [Invocation.run_eq]
    exact Run.bind_eq_ok.mpr ⟨_, w, hprepare, Run.bind_eq_ok.mpr ⟨written, v, hwrite, rfl⟩⟩
  simp [execute, hparse, Invocation.execute, hrun, exitCode?, Except.toOption]

/-- After a run for both documents with exit code 0, the file of the Markdown document holds what
was built from the settings and the schema of the run.  The file of the page holds the page exactly
if the disk tells the two file names of the settings apart. -/
theorem holds_execute_both {arguments : List Text} {i : Invocation} {files : FileSystem}
    (hparse : parse arguments = .ok (.generate i)) (hboth : i.command = .both)
    (hexit : exitCode? (execute arguments files).1 = some 0) :
    ∃ settings d, i.Builds { files } settings d ∧
      (execute arguments files).2.Holds (i.markdownPath settings) d.markdown ∧
      ((execute arguments files).2.Holds (i.htmlPath settings) d.html ↔
        FileSystem.Name.listed settings.htmlFile ≠
          FileSystem.Name.listed settings.markdownFile) := by
  obtain ⟨v, hrun, hfiles⟩ := run_of_exitCode_zero hparse hexit
  rw [hfiles]
  exact Invocation.holds_run_both hboth hrun

def plainInvocation : Invocation where
  verbose := false
  command := .both
  options := {}

/-- The current directory with an empty schema, and with settings that call both documents by the
name of the page. -/
def sameNameFiles : FileSystem where
  nodes := [(["prisma"], .directory),
    (["prisma", "dmmf.json"], .file ((Text.ofString "[]").flatMap Utf8.encodeOne)),
    (["prisma-docs.toml"],
      .file ((Text.ofString "[output]\nmarkdown = \"index.html\"").flatMap Utf8.encodeOne))]

theorem exitCode_sameName : exitCode? (execute ["gen-docs"] sameNameFiles).1 = some 0 := by
  -- The page is long, so it is the Markdown document that is looked at: it is the last target.
  have hready : (match plainInvocation.prepare { files := sameNameFiles } with
      | .ok targets w => decide (∀ t ∈ targets, w.files.CanOpen t.1) &&
          targets.getLast?.any fun t => decide (SurrogateFree t.2)
      | .error _ _ => false) = true := by
    decide +kernel
  cases hprepare : plainInvocation.prepare { files := sameNameFiles } with
  | error failure w => simp [hprepare] at hready
  | ok targets w =>
      simp only [hprepare, Bool.and_eq_true, decide_eq_true_eq, Option.any_eq_true] at hready
      obtain ⟨hopen, t, ht, hfree⟩ := hready
      exact exitCode_zero_of_prepare (i := plainInvocation) rfl hprepare hopen
        (List.mem_of_getLast? ht) hfree

theorem holds_execute_both_sameName :
    parse ["gen-docs"] = .ok (.generate plainInvocation) ∧
      exitCode? (execute ["gen-docs"] sameNameFiles).1 = some 0 ∧
      ∃ settings d, plainInvocation.Builds { files := sameNameFiles } settings d ∧
        (execute ["gen-docs"] sameNameFiles).2.Holds (plainInvocation.markdownPath settings)
          d.markdown ∧
        ((execute ["gen-docs"] sameNameFiles).2.Holds (plainInvocation.htmlPath settings) d.html ↔
          FileSystem.Name.listed settings.htmlFile ≠
            FileSystem.Name.listed settings.markdownFile) := by
  have hparse : parse ["gen-docs"] = .ok (.generate plainInvocation) := by rfl
  exact ⟨hparse, exitCode_sameName, holds_execute_both hparse rfl exitCode_sameName⟩

/-- Its run ends with exit code 0, and the file of the page does not hold the page. -/
theorem lost_execute_sameName :
    parse ["gen-docs"] = .ok (.generate plainInvocation) ∧
      exitCode? (execute ["gen-docs"] sameNameFiles).1 = some 0 ∧
      ∃ settings d, plainInvocation.Builds { files := sameNameFiles } settings d ∧
        ¬ (execute ["gen-docs"] sameNameFiles).2.Holds (plainInvocation.htmlPath settings)
          d.html := by
  have hparse : parse ["gen-docs"] = .ok (.generate plainInvocation) := by rfl
  have hsame : (match Settings.load .standard { files := sameNameFiles } with
      | .ok settings _ => settings.htmlFile == settings.markdownFile
      | .error _ _ => false) = true := by
    decide +kernel
  obtain ⟨v, hrun, hfiles⟩ := run_of_exitCode_zero hparse exitCode_sameName
  obtain ⟨settings, d, hbuilds, -, hpage⟩ := Invocation.holds_run_both rfl hrun
  have hname : settings.htmlFile = settings.markdownFile := by
    obtain ⟨raw, w₁, w₂, w₃, hsettings, -, -⟩ := hbuilds
    rw [show Settings.load .standard { files := sameNameFiles } = .ok settings w₁ from
      hsettings] at hsame
    exact beq_iff_eq.mp hsame
  refine ⟨hparse, exitCode_sameName, settings, d, hbuilds, ?_⟩
  rw [hfiles, hpage, hname]
  exact fun hne => hne rfl

end SchemaDocs.CommandLine
