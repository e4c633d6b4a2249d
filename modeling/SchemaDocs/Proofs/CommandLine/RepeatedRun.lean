import SchemaDocs.Proofs.CommandLine.SparedInputs
/-!
# Runs that are repeated

A run that ends with exit code 0 and writes none of the files that it reads can be repeated: the
second run finds the directory of the documents, so it makes none, and puts the same documents in
the same places, so that the files stay as they are.

* `Invocation.prepared_after`, `Invocation.run_again`: what a second run finds, and what it does;
* `execute_again`: the same of a command line.
-/

namespace SchemaDocs.CommandLine

/-- The lines that are left by a run for which the directory of the documents is there. -/
def Invocation.logInPlace (i : Invocation) (settings : Settings) (d : DocumentPair) :
    List LogLine :=
  [Schema.searchLine (i.schemaPath settings), Schema.countLine d.models] ++
    (i.outputs settings).map DocumentPair.writtenLine

theorem Invocation.prepared_after {i j : Invocation} (hoptions : j.options = i.options)
    {files : FileSystem} {settings : Settings} {d : DocumentPair} {u v : World}
    {puts : List (Location × Bytes)} (hbuilds : i.Builds { files } settings d)
    (hprepare : DocumentPair.prepare (i.directory settings) (i.ready settings d { files }) =
      .ok () u)
    (hputs : List.Forall₂ u.files.Puts (i.targets settings d) puts)
    (hspared : i.SparesInputs files (u.files.setFiles puts))
    (hv : v.files = u.files.setFiles puts) :
    j.Builds v settings d ∧
      DocumentPair.prepare (j.directory settings) (j.ready settings d v) =
        .ok () (j.ready settings d v) := by
  have hkept : FileSystem.KeepsDirectories u.files v.files := by
    rw [hv]
    exact FileSystem.keepsDirectories_setFiles fun _ => FileSystem.free_of_puts hputs
  have hdirectory : j.directory settings = i.directory settings := by
    rw [Invocation.directory, Invocation.directory, hoptions]
  constructor
  · exact hbuilds.after hoptions (DocumentPair.sameFiles_of_prepare hprepare)
      (DocumentPair.keepsDirectories_of_prepare hprepare) hputs hspared hv
  · rw [hdirectory]
    exact DocumentPair.prepare_of_isDirectory
      ((DocumentPair.isDirectory_of_prepare hprepare).keeps hkept)

/-- A run that is repeated leaves the files as they are and prepares nothing. -/
theorem Invocation.run_again {i : Invocation} {files : FileSystem} {w : World}
    (hrun : i.run { files } = .ok () w) (hspared : i.SparesInputs files w.files) :
    ∃ settings d, i.run { files := w.files } =
      .ok () { files := w.files, log := i.logInPlace settings d } := by
  obtain ⟨settings, d, u, puts, hbuilds, hprepare, hputs, rfl⟩ := Invocation.run_eq_ok_iff.mp hrun
  have hfree : ∀ e ∈ puts, u.files.find? e.1 ≠ some .directory :=
    fun e => FileSystem.free_of_puts hputs
  let v : World := { files := u.files.setFiles puts }
  obtain ⟨hagain, hplaced⟩ := prepared_after (v := v) rfl hbuilds hprepare hputs hspared rfl
  have hput : List.Forall₂ v.files.Puts (i.targets settings d) puts :=
    hputs.imp fun _ _ h => h.setFiles hfree
  have hsame : v.files.setFiles puts = v.files :=
    FileSystem.setFiles_setFiles (fun e he => FileSystem.ne_nil_of_free (hfree e he)) u.files
  refine ⟨settings, d, Invocation.run_eq_ok_iff.mpr
    ⟨settings, d, i.ready settings d v, puts, hagain, hplaced, hput, ?_⟩⟩
  rw [show (i.ready settings d v).files = v.files from rfl, hsame]
  rfl

theorem Invocation.text_ne_of_mem_logInPlace {i : Invocation} {settings : Settings}
    {d : DocumentPair} {line : LogLine} (h : line ∈ i.logInPlace settings d) :
    line.text ≠ "Docs directory created." := by
  intro heq
  have hstart := congrArg (List.take 4) heq
  rcases List.mem_append.mp h with h | h
  · rcases List.mem_cons.mp h with rfl | h
    · change ("Look" : Text) = "Docs" at hstart
      exact absurd hstart (by decide)
    · obtain rfl := List.mem_singleton.mp h
      change ("norm" : Text) = "Docs" at hstart
      exact absurd hstart (by decide)
  · obtain ⟨p, -, rfl⟩ := List.mem_map.mp h
    change ("Docu" : Text) = "Docs" at hstart
    exact absurd hstart (by decide)

/-- A command line that ends with exit code 0, and writes none of the files that it reads, ends with
exit code 0 again.  It leaves all files and directories as they are then, and does not say that it
has made a directory. -/
theorem execute_again {arguments : List Text} {i : Invocation} {files : FileSystem}
    (hparse : parse arguments = .ok (.generate i))
    (hexit : exitCode? (execute arguments files).1 = some 0)
    (hspared : i.SparesInputs files (execute arguments files).2) :
    exitCode? (execute arguments (execute arguments files).2).1 = some 0 ∧
      (execute arguments (execute arguments files).2).2 = (execute arguments files).2 ∧
      ∀ line ∈ (Run.final i.run { files := (execute arguments files).2 }).log,
        line.text ≠ "Docs directory created." := by
  obtain ⟨w, hrun, hfiles⟩ := run_of_exitCode_zero hparse hexit
  rw [hfiles] at hspared ⊢
  obtain ⟨settings, d, hagain⟩ := Invocation.run_again hrun hspared
  have hexecute : execute arguments w.files = i.execute w.files := by rw [execute, hparse]
  rw [hexecute, Invocation.execute, Run.final, hagain]
  exact ⟨rfl, rfl, fun line hline => Invocation.text_ne_of_mem_logInPlace hline⟩

theorem sparesInputs_sameName (command : Command) (after : FileSystem) :
    ({ plainInvocation with command } : Invocation).SparesInputs sameNameFiles after := by
  have hnames : (match Settings.load .standard { files := sameNameFiles } with
      | .ok settings _ =>
          decide (∀ p ∈ ({ plainInvocation with command } : Invocation).inputs settings,
            ∀ q ∈ ({ plainInvocation with command } : Invocation).outputs settings,
              FileSystem.Name.listed p.name ≠ FileSystem.Name.listed q.name)
      | .error _ _ => false) = true := by
    cases command <;> decide +kernel
  refine Invocation.sparesInputs_of_listed_name (fun settings w hload => ?_) after
  rw [show Settings.load .standard { files := sameNameFiles } = .ok settings w from hload] at hnames
  exact of_decide_eq_true hnames

theorem execute_again_sameName :
    parse ["gen-docs"] = .ok (.generate plainInvocation) ∧
      exitCode? (execute ["gen-docs"] sameNameFiles).1 = some 0 ∧
      plainInvocation.SparesInputs sameNameFiles (execute ["gen-docs"] sameNameFiles).2 ∧
      exitCode? (execute ["gen-docs"] (execute ["gen-docs"] sameNameFiles).2).1 = some 0 ∧
      (execute ["gen-docs"] (execute ["gen-docs"] sameNameFiles).2).2 =
        (execute ["gen-docs"] sameNameFiles).2 ∧
      ∀ line ∈ (Run.final plainInvocation.run
          { files := (execute ["gen-docs"] sameNameFiles).2 }).log,
        line.text ≠ "Docs directory created." := by
  have hparse : parse ["gen-docs"] = .ok (.generate plainInvocation) := by rfl
  have hspared := sparesInputs_sameName .both (execute ["gen-docs"] sameNameFiles).2
  exact ⟨hparse, exitCode_sameName, hspared, execute_again hparse exitCode_sameName hspared⟩

end SchemaDocs.CommandLine
