import SchemaDocs.Proofs.CommandLine.FailedRun
import SchemaDocs.Proofs.Document.Rendering
/-!
# Runs that touch nothing

Nothing is made or written before everything is rendered.  A command line that is refused, or whose
settings, schema or models cannot be used, ends with a status that says so and leaves all files and
directories as they are.  So does the writing of a single document that cannot be rendered.

* `EndsEarly`: how a command line ends before it has its documents;
* `untouched_execute`: what it leaves then.
-/

namespace SchemaDocs

namespace CommandLine

/-- How a command line ends before it has its documents. -/
inductive EndsEarly (arguments : List Text) (files : FileSystem) : Prop where
  /-- It is refused. -/
  | refused (refusal : Refusal) (hparse : parse arguments = .error refusal)
  /-- Its settings are not loaded. -/
  | settings (i : Invocation) (failure : Failure) (w : World)
      (hparse : parse arguments = .ok (.generate i))
      (hload : Settings.load i.options.config { files } = .error failure w)
  /-- Its schema is not loaded. -/
  | schema (i : Invocation) (settings : Settings) (failure : Failure) (w v : World)
      (hparse : parse arguments = .ok (.generate i))
      (hsettings : Settings.load i.options.config { files } = .ok settings w)
      (hload : Schema.load (i.options.schema.getD settings.schema) w = .error failure v)
  /-- The models of its schema have the wrong shape. -/
  | shape (i : Invocation) (settings : Settings) (raw : Value) (failure : Failure) (w v u : World)
      (hparse : parse arguments = .ok (.generate i))
      (hsettings : Settings.load i.options.config { files } = .ok settings w)
      (hschema : Schema.load (i.options.schema.getD settings.schema) w = .ok raw v)
      (hmodels : Schema.models raw v = .error failure u)

/-- A command line that ends early and is not refused has a run that fails with the files as they
were. -/
theorem EndsEarly.run_eq_error {arguments : List Text} {files : FileSystem}
    (h : EndsEarly arguments files) :
    (∃ refusal, parse arguments = .error refusal) ∨
      ∃ i failure w, parse arguments = .ok (.generate i) ∧
        i.run { files } = .error failure w ∧ files = w.files := by
  cases h with
  | refused refusal hparse => exact .inl ⟨refusal, hparse⟩
  | settings i failure w hparse hload =>
      have hkept : files = w.files := Run.keeps_of_error (R := Eq) (keeps_loadSettings _) hload
      exact .inr ⟨i, failure, w, hparse, Run.bind_of_error hload _, hkept⟩
  | schema i settings failure w v hparse hsettings hload =>
      have hfirst : files = w.files := Run.keeps_of_ok (R := Eq) (keeps_loadSettings _) hsettings
      have hkept : w.files = v.files := Run.keeps_of_error (R := Eq) (keeps_loadSchema _) hload
      refine .inr ⟨i, failure, v, hparse, ?_, hfirst.trans hkept⟩
      rw [Invocation.run, Run.bind_of_ok hsettings]
      exact Run.bind_of_error hload _
  | shape i settings raw failure w v u hparse hsettings hschema hmodels =>
      have hbuild : DocumentPair.build (i.options.titleFor settings) raw v = .error failure u :=
        Run.bind_of_error hmodels _
      have hfirst : files = w.files := Run.keeps_of_ok (R := Eq) (keeps_loadSettings _) hsettings
      have hsecond : w.files = v.files := Run.keeps_of_ok (R := Eq) (keeps_loadSchema _) hschema
      have hkept : v.files = u.files :=
        Run.keeps_of_error (R := Eq) (DocumentPair.keeps_build _ _) hbuild
      refine .inr ⟨i, failure, u, hparse, ?_, hfirst.trans (hsecond.trans hkept)⟩
      rw [Invocation.run, Run.bind_of_ok hsettings, Run.bind_of_ok hschema]
      exact Run.bind_of_error hbuild _

theorem exitStatus_execute_ne_zero {i : Invocation} {files : FileSystem} {failure : Failure}
    {w : World} (h : i.run { files } = .error failure w) :
    exitStatus (i.execute files).1 ≠ 0 ∧ (i.execute files).2 = w.files := by
  simp only [Invocation.execute, h]
  by_cases hreported : failure.isReported = true
  · rw [if_pos hreported]
    exact ⟨Nat.one_ne_zero, rfl⟩
  · rw [if_neg hreported]
    exact ⟨Nat.one_ne_zero, rfl⟩

end CommandLine

theorem writeDocument_of_render_error {render : List Model → Except RenderFault Text}
    {models : List Model} {fault : RenderFault} (h : render models = .error fault) (output : Path)
    (w : World) : writeDocument render models output w = .error (.render fault) w := by
  have hrender : Run.ofExcept .render (render models) w = .error (.render fault) w := by
    rw [h]
    rfl
  exact Run.bind_of_error hrender _

namespace CommandLine

/-- Nothing is touched before everything is rendered.  A command line that is refused, or whose
settings, schema or models cannot be used, ends with a status other than 0 and leaves the files and
directories as they are.  The same holds of the page or the Markdown document of any models, if it
cannot be rendered. -/
theorem untouched_execute (arguments : List Text) (files : FileSystem) (title : Text)
    (models : List Model) (output : Path) (w : World) :
    (EndsEarly arguments files →
      exitStatus (execute arguments files).1 ≠ 0 ∧ (execute arguments files).2 = files) ∧
    (∀ fault, Html.render title models = .error fault →
      writeHtmlFile title models output w = .error (.render fault) w) ∧
    ∀ fault, Markdown.render title models = .error fault →
      writeMarkdownFile title models output w = .error (.render fault) w := by
  refine ⟨fun hearly => ?_, ?_, ?_⟩
  · rcases hearly.run_eq_error with ⟨refusal, hparse⟩ | ⟨i, failure, v, hparse, hrun, hkept⟩
    · rw [execute, hparse]
      exact ⟨Nat.succ_ne_zero 1, rfl⟩
    · rw [execute, hparse, hkept]
      rw [hkept] at hrun
      exact exitStatus_execute_ne_zero hrun
  · exact fun fault hfault => writeDocument_of_render_error hfault output w
  · exact fun fault hfault => writeDocument_of_render_error hfault output w

/-- The current directory with a schema whose only model is a number. -/
def numberFiles : FileSystem where
  nodes := [(["prisma"], .directory),
    (["prisma", "dmmf.json"], .file ((Text.ofString "[1]").flatMap Utf8.encodeOne))]

/-- A schema of the wrong shape, a settings file that is missing, and models with a default that has
no literal. -/
theorem untouched_execute_mixed :
    (EndsEarly ["gen-docs"] numberFiles ∧ exitStatus (execute ["gen-docs"] numberFiles).1 ≠ 0 ∧
      (execute ["gen-docs"] numberFiles).2 = numberFiles) ∧
    (EndsEarly ["gen-docs", "--config=a.toml"] numberFiles ∧
      exitStatus (execute ["gen-docs", "--config=a.toml"] numberFiles).1 ≠ 0 ∧
      (execute ["gen-docs", "--config=a.toml"] numberFiles).2 = numberFiles) ∧
    writeHtmlFile "D" [foreignDefault] (.ofText "new/index.html") { files := numberFiles } =
      .error (.render (.unwritable .foreignObject)) { files := numberFiles } ∧
    writeMarkdownFile "D" [foreignDefault] (.ofText "new/index.md") { files := numberFiles } =
      .error (.render (.unwritable .foreignObject)) { files := numberFiles } := by
  have hnumber : EndsEarly ["gen-docs"] numberFiles :=
    .shape { verbose := false, command := .both, options := {} } {} (.list .writable [.int 1])
      _ _ _ _ rfl (by rfl) (by rfl) (by rfl)
  have hmissing : EndsEarly ["gen-docs", "--config=a.toml"] numberFiles :=
    .settings
      { verbose := false, command := .both, options := { config := .named (.ofText "a.toml") } }
      _ _ rfl (by rfl)
  have hfault : Markdown.render "D" [foreignDefault] = .error (.unwritable .foreignObject) := by rfl
  have hpage : Html.render "D" [foreignDefault] = .error (.unwritable .foreignObject) := by rfl
  let w : World := { files := numberFiles }
  have hfirst := untouched_execute ["gen-docs"] numberFiles "D" [foreignDefault]
    (.ofText "new/index.html") w
  have hsecond := untouched_execute ["gen-docs", "--config=a.toml"] numberFiles "D"
    [foreignDefault] (.ofText "new/index.md") w
  exact ⟨⟨hnumber, hfirst.1 hnumber⟩, ⟨hmissing, hsecond.1 hmissing⟩, hfirst.2.1 _ hpage,
    hsecond.2.2 _ hfault⟩

end CommandLine

end SchemaDocs
