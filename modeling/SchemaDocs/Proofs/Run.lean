import Mathlib.Order.Defs.Unbundled
import SchemaDocs.Proofs.FileSystem.SameFiles
import SchemaDocs.Proofs.Text.Utf8
import SchemaDocs.Run
/-!
# What runs do to files

A run keeps a relation if the files before it and those after it are related, whether it succeeds or
fails.  Runs that only look at files keep every reflexive relation, and a sequence of runs keeps a
transitive one that each of them keeps.

* `writeFile_eq_ok`, `writeFile_eq_error`: what writing a file leaves there.
-/

namespace SchemaDocs.Run

open FileSystem (SameFiles)
open Text (SurrogateFree)

variable {α β : Type} {R : FileSystem → FileSystem → Prop}

/-! ## Steps of a run -/

theorem bind_of_ok {m : Run α} {w v : World} {a : α} (h : m w = .ok a v) (f : α → Run β) :
    (m >>= f) w = f a v := by
  simp [bind, EStateM.bind, h]

theorem bind_of_error {m : Run α} {w v : World} {failure : Failure} (h : m w = .error failure v)
    (f : α → Run β) : (m >>= f) w = .error failure v := by
  simp [bind, EStateM.bind, h]

theorem bind_eq_ok {m : Run α} {f : α → Run β} {w v : World} {b : β} :
    (m >>= f) w = .ok b v ↔ ∃ a u, m w = .ok a u ∧ f a u = .ok b v := by
  cases hm : m w with
  | ok a u => simp [bind_of_ok hm]
  | error failure u => simp [bind_of_error hm]

theorem bind_eq_error {m : Run α} {f : α → Run β} {w v : World} {failure : Failure} :
    (m >>= f) w = .error failure v ↔
      m w = .error failure v ∨ ∃ a u, m w = .ok a u ∧ f a u = .error failure v := by
  cases hm : m w with
  | ok a u => simp [bind_of_ok hm]
  | error other u => simp [bind_of_error hm]

theorem ofExcept_eq_ok {ε : Type} {failure : ε → Failure} {result : Except ε α} {w v : World}
    {a : α} : ofExcept failure result w = .ok a v ↔ result = .ok a ∧ w = v := by
  cases result with
  | ok b =>
      constructor
      · intro h
        cases h
        exact ⟨rfl, rfl⟩
      · rintro ⟨hb, rfl⟩
        cases hb
        rfl
  | error error =>
      constructor
      · intro h
        cases h
      · rintro ⟨h, -⟩
        cases h

theorem ofExcept_eq_error {ε : Type} {failure : ε → Failure} {result : Except ε α} {w v : World}
    {other : Failure} : ofExcept failure result w = .error other v ↔
      ∃ error, result = .error error ∧ failure error = other ∧ w = v := by
  cases result with
  | ok a =>
      constructor
      · intro h
        cases h
      · rintro ⟨error, h, -⟩
        cases h
  | error error =>
      constructor
      · intro h
        cases h
        exact ⟨error, rfl, rfl, rfl⟩
      · rintro ⟨error', h, rfl, rfl⟩
        cases h
        rfl

/-! ## Relations between files -/

/-- The state in which a run ends. -/
def final (m : Run α) (w : World) : World :=
  match m w with
  | .ok _ v => v
  | .error _ v => v

/-- Whether the files before a run and those after it are always related. -/
def Keeps (R : FileSystem → FileSystem → Prop) (m : Run α) : Prop :=
  ∀ w, R w.files (final m w).files

theorem keeps_of_ok {m : Run α} (hm : Keeps R m) {w v : World} {a : α} (h : m w = .ok a v) :
    R w.files v.files := by
  have hw := hm w
  rwa [final, h] at hw

theorem keeps_of_error {m : Run α} (hm : Keeps R m) {w v : World} {failure : Failure}
    (h : m w = .error failure v) : R w.files v.files := by
  have hw := hm w
  rwa [final, h] at hw

theorem keeps_bind [IsTrans FileSystem R] {m : Run α} {f : α → Run β} (hm : Keeps R m)
    (hf : ∀ a, Keeps R (f a)) : Keeps R (m >>= f) := by
  intro w
  have hw := hm w
  cases hcase : m w with
  | ok a v =>
      have hv := hf a v
      rw [final, hcase] at hw
      rw [final] at hv
      rw [final, bind_of_ok hcase]
      exact IsTrans.trans _ _ _ hw hv
  | error failure v =>
      rw [final, hcase] at hw
      rwa [final, bind_of_error hcase]

section Looking

variable [Std.Refl R]

theorem keeps_pure (a : α) : Keeps R (pure a : Run α) := fun w => Std.Refl.refl w.files

theorem keeps_throw (failure : Failure) : Keeps R (throw failure : Run α) := fun w =>
  Std.Refl.refl w.files

theorem keeps_log (level : Level) (text : Text) : Keeps R (log level text) := fun w =>
  Std.Refl.refl w.files

theorem keeps_ofExcept {ε : Type} (failure : ε → Failure) (result : Except ε α) :
    Keeps R (ofExcept failure result) := by
  cases result with
  | ok a => exact keeps_pure a
  | error error => exact keeps_throw (failure error)

theorem keeps_ask (question : FileSystem → Except FileError α) : Keeps R (ask question) := by
  intro w
  unfold final ask
  cases question w.files with
  | ok a => exact Std.Refl.refl w.files
  | error error => exact Std.Refl.refl w.files

theorem keeps_readFile [IsTrans FileSystem R] (p : Path) : Keeps R (readFile p) :=
  keeps_bind (keeps_ask _) fun _ => keeps_ofExcept _ _

end Looking

theorem keeps_change {step : FileSystem → FileSystem × Except FileError Unit}
    (h : ∀ fs, R fs (step fs).1) : Keeps R (change step) := by
  intro w
  have hw := h w.files
  unfold final change
  cases hstep : step w.files with
  | mk files outcome =>
      rw [hstep] at hw
      cases outcome with
      | ok _ => exact hw
      | error error => exact hw

theorem keeps_makeDirectories (p : Path) (mayExist : Bool) :
    Keeps SameFiles (makeDirectories p mayExist) :=
  keeps_change fun fs => FileSystem.sameFiles_makeDirectories fs p mayExist

/-! ## Writing files -/

theorem writeFile_eq_ok {p : Path} {t : Text} {w v : World} (h : writeFile p t w = .ok () v) :
    ∃ opened place, w.files.openForWriting p = .ok (opened, place) ∧ SurrogateFree t ∧
      v.files = w.files.set place (.file (Utf8.bytesLeft t)) := by
  unfold writeFile at h
  split at h
  · cases h
  · next opened place hopen =>
      split at h
      · cases h
      · next bytes hbytes =>
          cases h
          obtain ⟨-, -, -, rfl⟩ := FileSystem.openForWriting_eq_ok hopen
          refine ⟨_, place, hopen, Utf8.exists_encode_eq_ok.mp ⟨bytes, hbytes⟩, ?_⟩
          rw [FileSystem.set_set, Utf8.bytesLeft_of_ok hbytes]

theorem writeFile_eq_error {p : Path} {t : Text} {w v : World} {failure : Failure}
    (h : writeFile p t w = .error failure v) :
    (∃ error, w.files.openForWriting p = .error error ∧ v = w) ∨
      ∃ opened place, w.files.openForWriting p = .ok (opened, place) ∧ ¬ SurrogateFree t ∧
        v.files = w.files.set place (.file (Utf8.bytesLeft t)) := by
  unfold writeFile at h
  split at h
  · next error hopen =>
      cases h
      exact .inl ⟨error, hopen, rfl⟩
  · next opened place hopen =>
      split at h
      · next fault hfault =>
          cases h
          obtain ⟨-, -, -, rfl⟩ := FileSystem.openForWriting_eq_ok hopen
          refine .inr ⟨_, place, hopen, fun hfree => ?_, by rw [Utf8.bytesLeft_of_error hfault]⟩
          obtain ⟨bytes, hbytes⟩ := Utf8.exists_encode_eq_ok.mpr hfree
          rw [hfault] at hbytes
          cases hbytes
      · cases h

end SchemaDocs.Run
