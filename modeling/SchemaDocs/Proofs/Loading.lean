import SchemaDocs.DocumentPair
import SchemaDocs.Proofs.FileSystem.Contents
import SchemaDocs.Proofs.Run
import SchemaDocs.Settings.Source
/-!
# What loading depends on

Settings and a schema are loaded without a change of any file, and only the bytes of their own files
matter.  So in another tree, where these files are the same, the same settings and the same schema
are loaded.

* `Settings.load_standard_eq_ok_iff`, `Settings.loadFile_of_keepsFile`: where settings come from;
* `Schema.load_eq_ok_iff`, `DocumentPair.build_eq_ok_iff`: what a schema and its documents come from.
-/

namespace SchemaDocs

/-! ## Reading files -/

namespace FileSystem

theorem read_eq_ok_iff {fs : FileSystem} {p : Path} {bytes : Bytes} :
    fs.read p = .ok bytes ↔ ∃ place, fs.resolve p = .ok (place, some (.file bytes)) := by
  constructor
  · intro h
    unfold read at h
    split at h
    · next place content hresolve =>
        cases h
        exact ⟨place, hresolve⟩
    · cases h
    · cases h
    · cases h
  · rintro ⟨place, hresolve⟩
    exact read_of_resolve hresolve

theorem isFile_of_read {fs : FileSystem} {p : Path} {bytes : Bytes} (h : fs.read p = .ok bytes) :
    fs.isFile p = .ok true := by
  obtain ⟨place, hresolve⟩ := read_eq_ok_iff.mp h
  rw [isFile, ask, hresolve]

/-- Whether the file that a path names in one tree is in another one as well. -/
def KeepsFile (p : Path) (before after : FileSystem) : Prop :=
  ∀ bytes, before.read p = .ok bytes → after.read p = .ok bytes

theorem KeepsFile.refl (p : Path) (fs : FileSystem) : KeepsFile p fs fs :=
  fun _ h => h

end FileSystem

open FileSystem (KeepsFile)

namespace Run

theorem ask_eq_ok_iff {α : Type} {question : FileSystem → Except FileError α} {w v : World}
    {a : α} : ask question w = .ok a v ↔ question w.files = .ok a ∧ v = w := by
  unfold ask
  cases question w.files with
  | error error => simp
  | ok b =>
      constructor
      · intro h
        cases h
        exact ⟨rfl, rfl⟩
      · rintro ⟨h, rfl⟩
        cases h
        rfl

theorem readFile_eq_ok_iff {p : Path} {w v : World} {t : Text} :
    readFile p w = .ok t v ↔
      (∃ bytes, w.files.read p = .ok bytes ∧ Utf8.decode bytes = .ok t) ∧ v = w := by
  constructor
  · intro h
    obtain ⟨bytes, u, hread, hrest⟩ := bind_eq_ok.mp h
    obtain ⟨hbytes, rfl⟩ := ask_eq_ok_iff.mp hread
    obtain ⟨hdecode, rfl⟩ := ofExcept_eq_ok.mp hrest
    exact ⟨⟨bytes, hbytes, hdecode⟩, rfl⟩
  · rintro ⟨⟨bytes, hbytes, hdecode⟩, rfl⟩
    exact bind_eq_ok.mpr
      ⟨bytes, v, ask_eq_ok_iff.mpr ⟨hbytes, rfl⟩, ofExcept_eq_ok.mpr ⟨hdecode, rfl⟩⟩

end Run

/-! ## Settings -/

namespace Settings

theorem loadFile_eq_ok_iff {p : Path} {w v : World} {settings : Settings} :
    loadFile p w = .ok settings v ↔
      (∃ bytes t, w.files.read p = .ok bytes ∧ Utf8.decode bytes = .ok t ∧
        ofText t = .ok settings) ∧ v = w := by
  constructor
  · intro h
    obtain ⟨t, u, hread, hrest⟩ := Run.bind_eq_ok.mp h
    obtain ⟨⟨bytes, hbytes, hdecode⟩, rfl⟩ := Run.readFile_eq_ok_iff.mp hread
    obtain ⟨hsettings, rfl⟩ := Run.ofExcept_eq_ok.mp hrest
    exact ⟨⟨bytes, t, hbytes, hdecode, hsettings⟩, rfl⟩
  · rintro ⟨⟨bytes, t, hbytes, hdecode, hsettings⟩, rfl⟩
    exact Run.bind_eq_ok.mpr ⟨t, v, Run.readFile_eq_ok_iff.mpr ⟨⟨bytes, hbytes, hdecode⟩, rfl⟩,
      Run.ofExcept_eq_ok.mpr ⟨hsettings, rfl⟩⟩

theorem loadFile_of_keepsFile {p : Path} {settings : Settings} {w v u : World}
    (h : loadFile p w = .ok settings v) (hkept : KeepsFile p w.files u.files) :
    loadFile p u = .ok settings u := by
  obtain ⟨⟨bytes, t, hbytes, ht⟩, -⟩ := loadFile_eq_ok_iff.mp h
  exact loadFile_eq_ok_iff.mpr ⟨⟨bytes, t, hkept bytes hbytes, ht⟩, rfl⟩

theorem resolve_defaultFile (fs : FileSystem) :
    fs.resolve defaultFile = .ok (fs.current ++ [defaultFile.name],
      fs.find? (fs.current ++ [defaultFile.name])) := by
  rfl

theorem isFile_defaultFile_iff {fs : FileSystem} :
    fs.isFile defaultFile = .ok false ↔
      ∀ bytes, fs.find? (fs.current ++ [defaultFile.name]) ≠ some (.file bytes) := by
  rw [FileSystem.isFile, FileSystem.ask, resolve_defaultFile]
  cases fs.find? (fs.current ++ [defaultFile.name]) with
  | none =>
      refine iff_of_true rfl fun bytes h => ?_
      cases h
  | some node =>
      cases node with
      | directory =>
          refine iff_of_true rfl fun bytes h => ?_
          cases h
      | file bytes =>
          refine iff_of_false (fun h => ?_) fun h => h bytes rfl
          cases h

/-- Without a named file there are two cases: the default one is read, or it is no file. -/
theorem load_standard_eq_ok_iff {settings : Settings} {w v : World} :
    load .standard w = .ok settings v ↔
      (w.files.isFile defaultFile = .ok true ∧ loadFile defaultFile w = .ok settings v) ∨
        (w.files.isFile defaultFile = .ok false ∧ settings = {} ∧ v = w) := by
  rw [load, Run.bind_eq_ok]
  constructor
  · rintro ⟨found, u, hask, h⟩
    obtain ⟨hfound, rfl⟩ := Run.ask_eq_ok_iff.mp hask
    cases found with
    | true => exact .inl ⟨hfound, h⟩
    | false =>
        cases h
        exact .inr ⟨hfound, rfl, rfl⟩
  · rintro (⟨hfound, h⟩ | ⟨hfound, rfl, rfl⟩)
    · exact ⟨true, w, Run.ask_eq_ok_iff.mpr ⟨hfound, rfl⟩, h⟩
    · exact ⟨false, v, Run.ask_eq_ok_iff.mpr ⟨hfound, rfl⟩, rfl⟩

theorem load_eq_ok_world {file : SettingsFile} {settings : Settings} {w v : World}
    (h : load file w = .ok settings v) : v = w := by
  cases file with
  | named p => exact (loadFile_eq_ok_iff.mp h).2
  | standard =>
      rcases load_standard_eq_ok_iff.mp h with ⟨-, hfile⟩ | ⟨-, -, hworld⟩
      · exact (loadFile_eq_ok_iff.mp hfile).2
      · exact hworld

end Settings

/-! ## Schemas and their documents -/

namespace Schema

def searchLine (p : Path) : LogLine :=
  ⟨.info, "Looking for schema at: " ++ p.text⟩

def countLine (models : List Model) : LogLine :=
  ⟨.debug, "normalized " ++ Text.ofNat models.length ++ " models"⟩

theorem load_of_decode {p : Path} {w : World} {bytes : Bytes} {t : Text}
    (hbytes : w.files.read p = .ok bytes) (hdecode : Utf8.decode bytes = .ok t) :
    load p w = Run.ofExcept id (ofText t) { w with log := w.log ++ [searchLine p] } := by
  let searched : World := { w with log := w.log ++ [searchLine p] }
  have hlog : Run.log .info ("Looking for schema at: " ++ p.text) w = .ok () searched := rfl
  have hask : Run.ask (fun fs => fs.isFile p) searched = .ok true searched :=
    Run.ask_eq_ok_iff.mpr ⟨FileSystem.isFile_of_read hbytes, rfl⟩
  have hread : Run.readFile p searched = .ok t searched :=
    Run.readFile_eq_ok_iff.mpr ⟨⟨bytes, hbytes, hdecode⟩, rfl⟩
  rw [load, Run.bind_of_ok hlog, Run.bind_of_ok hask]
  exact Run.bind_of_ok hread _

theorem load_eq_ok_iff {p : Path} {w v : World} {raw : Value} :
    load p w = .ok raw v ↔
      (∃ bytes t, w.files.read p = .ok bytes ∧ Utf8.decode bytes = .ok t ∧ ofText t = .ok raw) ∧
        v = { w with log := w.log ++ [searchLine p] } := by
  constructor
  · intro h
    have hlog : Run.log .info ("Looking for schema at: " ++ p.text) w =
        .ok () { w with log := w.log ++ [searchLine p] } := rfl
    rw [load, Run.bind_of_ok hlog, Run.bind_eq_ok] at h
    obtain ⟨found, u, hask, h⟩ := h
    obtain ⟨-, rfl⟩ := Run.ask_eq_ok_iff.mp hask
    cases found with
    | false => cases h
    | true =>
        obtain ⟨t, x, hread, h⟩ := Run.bind_eq_ok.mp h
        obtain ⟨⟨bytes, hbytes, hdecode⟩, rfl⟩ := Run.readFile_eq_ok_iff.mp hread
        obtain ⟨hraw, rfl⟩ := Run.ofExcept_eq_ok.mp h
        exact ⟨⟨bytes, t, hbytes, hdecode, hraw⟩, rfl⟩
  · rintro ⟨⟨bytes, t, hbytes, hdecode, hraw⟩, rfl⟩
    rw [load_of_decode hbytes hdecode]
    exact Run.ofExcept_eq_ok.mpr ⟨hraw, rfl⟩

theorem models_eq_ok_iff {raw : Value} {w v : World} {models : List Model} :
    Schema.models raw w = .ok models v ↔
      Model.listOfValue raw = .ok models ∧ v = { w with log := w.log ++ [countLine models] } := by
  rw [Schema.models, Run.bind_eq_ok]
  constructor
  · rintro ⟨found, u, hfound, h⟩
    obtain ⟨hmodels, rfl⟩ := Run.ofExcept_eq_ok.mp hfound
    cases h
    exact ⟨hmodels, rfl⟩
  · rintro ⟨hmodels, rfl⟩
    exact ⟨models, w, Run.ofExcept_eq_ok.mpr ⟨hmodels, rfl⟩, rfl⟩

end Schema

namespace DocumentPair

theorem build_eq_ok_iff {title : Text} {raw : Value} {w v : World} {d : DocumentPair} :
    build title raw w = .ok d v ↔
      ∃ models, Model.listOfValue raw = .ok models ∧ ofModels title models = .ok d ∧
        v = { w with log := w.log ++ [Schema.countLine models] } := by
  rw [build, Run.bind_eq_ok]
  constructor
  · rintro ⟨models, u, hmodels, h⟩
    obtain ⟨hlist, rfl⟩ := Schema.models_eq_ok_iff.mp hmodels
    obtain ⟨hd, rfl⟩ := Run.ofExcept_eq_ok.mp h
    exact ⟨models, hlist, hd, rfl⟩
  · rintro ⟨models, hlist, hd, rfl⟩
    exact ⟨models, _, Schema.models_eq_ok_iff.mpr ⟨hlist, rfl⟩, Run.ofExcept_eq_ok.mpr ⟨hd, rfl⟩⟩

end DocumentPair

end SchemaDocs
