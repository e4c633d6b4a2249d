import SchemaDocs.Proofs.Path
import SchemaDocs.Proofs.Run
import SchemaDocs.Settings.Source
/-!
# Settings that were loaded

However settings come about, the documents are called by file names.
-/

namespace SchemaDocs.Settings

open SchemaDocs.Path (IsFileName)

structure FileNames (settings : Settings) : Prop where
  html : IsFileName settings.htmlFile
  markdown : IsFileName settings.markdownFile

theorem fileNames_defaults : FileNames {} where
  html := by decide
  markdown := by decide

theorem textOf_ne_nil {entries : Toml.Entries} {table key default t : Text}
    (hdefault : default ≠ []) (h : textOf entries table key default = .ok t) : t ≠ [] := by
  unfold textOf at h
  split at h
  · cases h
    exact hdefault
  · split at h
    · cases h
    · next hblank =>
        cases h
        rwa [List.isEmpty_iff] at hblank
  · cases h

theorem isFileName_of_fileNameOf {entries : Toml.Entries} {key default t : Text}
    (hdefault : default ≠ []) (h : fileNameOf entries key default = .ok t) : IsFileName t := by
  obtain ⟨name, hname, h⟩ := Results.bind_eq_ok.mp h
  split at h
  · next hlast =>
      cases h
      exact Path.isFileName_of_name_eq (textOf_ne_nil hdefault hname) hlast
  · cases h

theorem fileNames_of_ofDocument {document : Toml.Entries} {settings : Settings}
    (h : ofDocument document = .ok settings) : settings.FileNames := by
  obtain ⟨_, -, h⟩ := Results.bind_eq_ok.mp h
  obtain ⟨_, -, h⟩ := Results.bind_eq_ok.mp h
  obtain ⟨_, -, h⟩ := Results.bind_eq_ok.mp h
  obtain ⟨_, -, h⟩ := Results.bind_eq_ok.mp h
  obtain ⟨_, -, h⟩ := Results.bind_eq_ok.mp h
  obtain ⟨htmlFile, hhtml, h⟩ := Results.bind_eq_ok.mp h
  obtain ⟨markdownFile, hmarkdown, h⟩ := Results.bind_eq_ok.mp h
  obtain ⟨_, -, h⟩ := Results.bind_eq_ok.mp h
  cases h
  exact ⟨isFileName_of_fileNameOf fileNames_defaults.html.ne_nil hhtml,
    isFileName_of_fileNameOf fileNames_defaults.markdown.ne_nil hmarkdown⟩

theorem fileNames_of_ofText {t : Text} {settings : Settings} (h : ofText t = .ok settings) :
    settings.FileNames := by
  unfold ofText at h
  split at h
  · cases h
  · cases h
  · split at h
    · next hdocument =>
        cases h
        exact fileNames_of_ofDocument hdocument
    · cases h

theorem fileNames_of_loadFile {p : Path} {settings : Settings} {w v : World}
    (h : loadFile p w = .ok settings v) : settings.FileNames := by
  obtain ⟨t, u, -, h⟩ := Run.bind_eq_ok.mp h
  exact fileNames_of_ofText (Run.ofExcept_eq_ok.mp h).1

theorem fileNames_of_load {file : SettingsFile} {settings : Settings} {w v : World}
    (h : load file w = .ok settings v) : settings.FileNames := by
  cases file with
  | named p => exact fileNames_of_loadFile h
  | standard =>
      obtain ⟨found, u, -, h⟩ := Run.bind_eq_ok.mp h
      cases found with
      | true => exact fileNames_of_loadFile h
      | false =>
          cases h
          exact fileNames_defaults

end SchemaDocs.Settings
