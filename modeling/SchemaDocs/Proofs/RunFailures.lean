import SchemaDocs.DocumentPair
import SchemaDocs.Proofs.Run
import SchemaDocs.Settings.Source
/-!
# What runs fail for

A sequence of runs fails for nothing but what its steps fail for.  So what holds of all failures to
find, read and decode files holds of the failures of everything that does no more than that.

* `Run.FailsOnly`: runs whose failures are all of one kind, closed under sequences;
* `Settings.failsOnly_load`, `Schema.failsOnly_load`, `DocumentPair.failsOnly_prepareTargets`: the
  kinds of failures before anything is written.
-/

namespace SchemaDocs

namespace Run

variable {α β : Type} {P : Failure → Prop}

/-- Whether a run fails for nothing but failures of a kind. -/
def FailsOnly (P : Failure → Prop) (m : Run α) : Prop :=
  ∀ w failure v, m w = .error failure v → P failure

/-- A step has to keep to the kind only after what the steps before it can return. -/
theorem failsOnly_bind {m : Run α} {f : α → Run β} (hm : FailsOnly P m)
    (hf : ∀ w a v, m w = .ok a v → FailsOnly P (f a)) : FailsOnly P (m >>= f) := by
  intro w failure v h
  rcases bind_eq_error.mp h with hfirst | ⟨a, u, ha, hrest⟩
  · exact hm w failure v hfirst
  · exact hf w a u ha u failure v hrest

theorem failsOnly_pure (a : α) : FailsOnly P (pure a : Run α) :=
  fun _ _ _ => nofun

theorem failsOnly_throw {failure : Failure} (h : P failure) :
    FailsOnly P (throw failure : Run α) := by
  intro w other v hthrow
  cases hthrow
  exact h

theorem failsOnly_log (level : Level) (text : Text) : FailsOnly P (log level text) :=
  fun _ _ _ => nofun

theorem failsOnly_ofExcept {ε : Type} {failure : ε → Failure} {result : Except ε α}
    (h : ∀ error, result = .error error → P (failure error)) :
    FailsOnly P (ofExcept failure result) := by
  cases result with
  | ok a => exact failsOnly_pure a
  | error error => exact failsOnly_throw (h error rfl)

section Files

variable (hfile : ∀ error, P (.file error))
include hfile

theorem failsOnly_ask (question : FileSystem → Except FileError α) :
    FailsOnly P (ask question) := by
  intro w failure v h
  unfold ask at h
  split at h
  · cases h
  · cases h
    exact hfile _

theorem failsOnly_change (step : FileSystem → FileSystem × Except FileError Unit) :
    FailsOnly P (change step) := by
  intro w failure v h
  unfold change at h
  split at h
  · cases h
  · cases h
    exact hfile _

theorem failsOnly_makeDirectories (p : Path) (mayExist : Bool) :
    FailsOnly P (makeDirectories p mayExist) :=
  failsOnly_change hfile _

theorem failsOnly_readFile (hundecodable : ∀ fault, P (.undecodable fault)) (p : Path) :
    FailsOnly P (readFile p) :=
  failsOnly_bind (failsOnly_ask hfile _) fun _ _ _ _ =>
    failsOnly_ofExcept fun _ _ => hundecodable _

theorem failsOnly_writeFile (hunencodable : ∀ fault, P (.unencodable fault)) (p : Path) (t : Text) :
    FailsOnly P (writeFile p t) := by
  intro w failure v h
  unfold writeFile at h
  split at h
  · cases h
    exact hfile _
  · split at h
    · cases h
      exact hunencodable _
    · cases h

end Files

end Run

open Run (FailsOnly failsOnly_bind failsOnly_pure failsOnly_throw failsOnly_log failsOnly_ofExcept
  failsOnly_ask failsOnly_makeDirectories failsOnly_readFile failsOnly_writeFile)

/-! ## Loading -/

theorem Settings.ofText_eq_error {t : Text} {failure : Failure} (h : ofText t = .error failure) :
    failure = .settingsSyntax ∨ (∃ digits, failure = .longInteger digits) ∨
      ∃ error, failure = .settings error := by
  unfold ofText at h
  split at h
  · cases h
    exact .inl rfl
  · cases h
    exact .inr (.inl ⟨_, rfl⟩)
  · split at h
    · cases h
    · cases h
      exact .inr (.inr ⟨_, rfl⟩)

theorem Schema.ofText_eq_error {t : Text} {failure : Failure} (h : ofText t = .error failure) :
    (∃ cause place, failure = .schemaSyntax cause place) ∨
      (∃ digits, failure = .longInteger digits) ∨ failure = .schemaWithoutModels := by
  unfold ofText at h
  split at h
  · cases h
    exact .inl ⟨_, _, rfl⟩
  · cases h
    exact .inr (.inl ⟨_, rfl⟩)
  · split at h
    · cases h
    · cases h
      exact .inr (.inr rfl)

variable {P : Failure → Prop} (hfile : ∀ error, P (.file error))
include hfile

namespace Settings

variable (hundecodable : ∀ fault, P (.undecodable fault))
  (htext : ∀ t failure, ofText t = .error failure → P failure)
include hundecodable htext

theorem failsOnly_loadFile (p : Path) : FailsOnly P (loadFile p) :=
  failsOnly_bind (failsOnly_readFile hfile hundecodable p) fun _ _ _ _ =>
    failsOnly_ofExcept (htext _)

theorem failsOnly_load (file : SettingsFile) : FailsOnly P (load file) := by
  cases file with
  | named p => exact failsOnly_loadFile hfile hundecodable htext p
  | standard =>
      refine failsOnly_bind (failsOnly_ask hfile _) fun w found v _ => ?_
      cases found with
      | true => exact failsOnly_loadFile hfile hundecodable htext _
      | false => exact failsOnly_pure _

end Settings

theorem Schema.failsOnly_load (hundecodable : ∀ fault, P (.undecodable fault))
    (htext : ∀ t failure, ofText t = .error failure → P failure)
    (hmissing : ∀ p, P (.schemaNotFound p)) (p : Path) : FailsOnly P (load p) := by
  refine failsOnly_bind (failsOnly_log _ _) fun _ _ _ _ =>
    failsOnly_bind (failsOnly_ask hfile _) fun w found v _ => ?_
  cases found with
  | true =>
      exact failsOnly_bind (failsOnly_readFile hfile hundecodable p) fun _ _ _ _ =>
        failsOnly_ofExcept (htext _)
  | false => exact failsOnly_throw (hmissing p)

/-! ## Preparing and writing -/

namespace DocumentPair

theorem failsOnly_prepareDirectory (directory : Path) :
    FailsOnly P (prepareDirectory directory) := by
  refine failsOnly_bind (failsOnly_ask hfile _) fun w found v _ => ?_
  cases found with
  | true => exact failsOnly_pure ()
  | false =>
      exact failsOnly_bind (failsOnly_makeDirectories hfile _ _) fun _ _ _ _ => failsOnly_log _ _

theorem failsOnly_prepareTargets (targets : List (Path × Text)) :
    FailsOnly P (prepareTargets targets) := by
  induction targets with
  | nil => exact failsOnly_pure ()
  | cons t rest ih =>
      exact failsOnly_bind (failsOnly_makeDirectories hfile _ _) fun _ _ _ _ => ih

theorem failsOnly_writeTargets (hunencodable : ∀ fault, P (.unencodable fault))
    (targets : List (Path × Text)) : FailsOnly P (writeTargets targets) := by
  induction targets with
  | nil => exact failsOnly_pure []
  | cons t rest ih =>
      exact failsOnly_bind (failsOnly_writeFile hfile hunencodable _ _) fun _ _ _ _ =>
        failsOnly_bind (failsOnly_log _ _) fun _ _ _ _ =>
        failsOnly_bind ih fun _ _ _ _ => failsOnly_pure _

end DocumentPair

end SchemaDocs
