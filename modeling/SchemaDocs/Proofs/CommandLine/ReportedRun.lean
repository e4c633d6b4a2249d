import SchemaDocs.Proofs.CommandLine.FailedRun
import SchemaDocs.Proofs.RunFailures
import SchemaDocs.Proofs.Schema.Loaded
/-!
# Reported failures

A schema that was loaded can be rendered, unless its models have the wrong shape, and that failure
is reported.  So are all failures of the settings, the schema file and the files that are written,
and no other failure can come up in a run.

* `Run.Reports`: runs whose failures are all reported;
* `DocumentPair.build_eq_error_iff`: what building documents of a loaded schema fails for;
* `reported_execute`: this, and the exit codes that command lines end with.
-/

namespace SchemaDocs

def Run.Reports {α : Type} (m : Run α) : Prop :=
  ∀ w failure v, m w = .error failure v → failure.isReported = true

open Run (Reports failsOnly_bind failsOnly_pure)

/-! ## Loading -/

namespace Settings

theorem isReported_of_ofText {t : Text} {failure : Failure} (h : ofText t = .error failure) :
    failure.isReported = true := by
  rcases ofText_eq_error h with rfl | ⟨_, rfl⟩ | ⟨_, rfl⟩ <;> rfl

theorem reports_load (file : SettingsFile) : Reports (load file) :=
  failsOnly_load (fun _ => rfl) (fun _ => rfl) (fun _ _ => isReported_of_ofText) file

end Settings

namespace Schema

theorem isReported_of_ofText {t : Text} {failure : Failure} (h : ofText t = .error failure) :
    failure.isReported = true := by
  rcases ofText_eq_error h with ⟨_, _, rfl⟩ | ⟨_, rfl⟩ | rfl <;> rfl

theorem reports_load (p : Path) : Reports (load p) :=
  failsOnly_load (fun _ => rfl) (fun _ => rfl) (fun _ _ => isReported_of_ofText) (fun _ => rfl) p

end Schema

/-! ## Building and writing -/

namespace DocumentPair

theorem build_of_shapeError (title : Text) {raw : Value} {error : ShapeError}
    (h : Model.listOfValue raw = .error error) (w : World) :
    build title raw w = .error (.shape error) w := by
  unfold build Schema.models
  rw [h]
  rfl

theorem exists_build {title : Text} {raw : Value} {models : List Model} {d : DocumentPair}
    (h : Model.listOfValue raw = .ok models) (hd : ofModels title models = .ok d) (w : World) :
    ∃ v, build title raw w = .ok d v := by
  have hmodels : ∃ v, Schema.models raw w = .ok models v := by
    unfold Schema.models
    rw [h]
    exact ⟨_, rfl⟩
  obtain ⟨v, hmodels⟩ := hmodels
  exact ⟨v, Run.bind_eq_ok.mpr ⟨models, v, hmodels, Run.ofExcept_eq_ok.mpr ⟨hd, rfl⟩⟩⟩

/-- Building the documents of a loaded schema fails for the shape of its models only. -/
theorem build_eq_error_iff {p : Path} {w v : World} {raw : Value}
    (hraw : Schema.load p w = .ok raw v) {title : Text} {u : World} {failure : Failure} :
    (∃ x, build title raw u = .error failure x) ↔
      ∃ error, Model.listOfValue raw = .error error ∧ failure = .shape error := by
  cases hmodels : Model.listOfValue raw with
  | error error =>
      rw [build_of_shapeError title hmodels]
      constructor
      · rintro ⟨x, h⟩
        cases h
        exact ⟨error, rfl, rfl⟩
      · rintro ⟨other, hother, rfl⟩
        cases hother
        exact ⟨u, rfl⟩
  | ok models =>
      obtain ⟨d, hd⟩ := exists_ofModels_of_load title hraw hmodels
      obtain ⟨y, hbuild⟩ := exists_build hmodels hd u
      rw [hbuild]
      constructor
      · rintro ⟨x, h⟩
        cases h
      · rintro ⟨error, h, -⟩
        cases h

theorem reports_build (title : Text) {p : Path} {w v : World} {raw : Value}
    (hraw : Schema.load p w = .ok raw v) : Reports (build title raw) := by
  intro u failure x h
  obtain ⟨error, -, rfl⟩ := (build_eq_error_iff hraw).mp ⟨x, h⟩
  rfl

theorem reports_write (d : DocumentPair) (directory : Path) (htmlFile markdownFile : Option Text) :
    Reports (d.write directory htmlFile markdownFile) :=
  failsOnly_bind (failsOnly_prepareDirectory (fun _ => rfl) _) fun _ _ _ _ =>
    failsOnly_bind (failsOnly_prepareTargets (fun _ => rfl) _) fun _ _ _ _ =>
    failsOnly_writeTargets (fun _ => rfl) (fun _ => rfl) _

end DocumentPair

/-! ## Command lines -/

namespace CommandLine

/-- Only a schema that was loaded is rendered, so rendering adds no failure to those of its shape. -/
theorem Invocation.reports_run (i : Invocation) : Reports i.run :=
  failsOnly_bind (Settings.reports_load _) fun _ _ _ _ =>
    failsOnly_bind (Schema.reports_load _) fun _ _ _ hraw =>
    failsOnly_bind (DocumentPair.reports_build _ hraw) fun _ d _ _ =>
    failsOnly_bind (d.reports_write _ _ _) fun _ _ _ _ => failsOnly_pure _

theorem Invocation.exitCode_execute (i : Invocation) (files : FileSystem) :
    exitCode? (i.execute files).1 = some 0 ∨ exitCode? (i.execute files).1 = some 1 := by
  unfold Invocation.execute
  cases hrun : i.run { files } with
  | ok _ w => exact .inl rfl
  | error failure w =>
      have hreported := i.reports_run _ _ _ hrun
      dsimp only
      rw [if_pos hreported]
      exact .inr rfl

/-- A schema that loads can be rendered.  Building the documents of a value that was loaded fails
exactly if the value has no models, and then for their shape.  So every command line that is not
refused ends with a report, and with exit code 0 or 1, whatever the files are. -/
theorem reported_execute (p : Path) (w : World) (title : Text) (arguments : List Text)
    (files : FileSystem) :
    (∀ raw v, Schema.load p w = .ok raw v → ∀ u failure,
      (∃ x, DocumentPair.build title raw u = .error failure x) ↔
        ∃ error, Model.listOfValue raw = .error error ∧ failure = .shape error) ∧
    ∀ request, parse arguments = .ok request →
      exitCode? (execute arguments files).1 = some 0 ∨
        exitCode? (execute arguments files).1 = some 1 := by
  refine ⟨fun raw v hraw u failure => DocumentPair.build_eq_error_iff hraw, ?_⟩
  intro request hparse
  rw [execute, hparse]
  cases request with
  | help text => exact .inl rfl
  | generate i => exact i.exitCode_execute files

/-- The current directory with a schema of one field, whose default is a function with a list as its
name. -/
def functionFiles : FileSystem where
  nodes := [(["prisma"], .directory), (["prisma", "dmmf.json"], .file (List.flatMap Utf8.encodeOne
    (Text.ofString "[\x7b\"name\":\"M\",\"fields\":[\x7b\"name\":\"f\",\"type\":\"T\"," ++
      Text.ofString "\"default\":\x7b\"name\":[[1],\x7b\"k\":2.5\x7d]\x7d\x7d]\x7d]")))]

theorem reported_execute_function :
    (∃ raw v, Schema.load (.ofText "prisma/dmmf.json") { files := functionFiles } = .ok raw v ∧
      ∀ u failure, (∃ x, DocumentPair.build "D" raw u = .error failure x) ↔
        ∃ error, Model.listOfValue raw = .error error ∧ failure = .shape error) ∧
    ∃ i, parse ["gen-docs", "--title=D"] = .ok (.generate i) ∧
      (exitCode? (execute ["gen-docs", "--title=D"] functionFiles).1 = some 0 ∨
        exitCode? (execute ["gen-docs", "--title=D"] functionFiles).1 = some 1) := by
  have hloads : (match Schema.load (.ofText "prisma/dmmf.json") { files := functionFiles } with
      | .ok _ _ => true
      | .error _ _ => false) = true := by
    decide +kernel
  have hparse : parse ["gen-docs", "--title=D"] = .ok (.generate
      { verbose := false, command := .both, options := { title := some (.ofString "D") } }) := by
    rfl
  obtain ⟨hbuild, hexit⟩ := reported_execute (.ofText "prisma/dmmf.json")
    { files := functionFiles } "D" ["gen-docs", "--title=D"] functionFiles
  refine ⟨?_, _, hparse, hexit _ hparse⟩
  cases hload : Schema.load (.ofText "prisma/dmmf.json") { files := functionFiles } with
  | error failure w => simp [hload] at hloads
  | ok raw v => exact ⟨raw, v, rfl, hbuild raw v hload⟩

end CommandLine

end SchemaDocs
