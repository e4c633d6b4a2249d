import SchemaDocs.Proofs.Loading
import SchemaDocs.Proofs.Settings
/-!
# Where configured documents go

The name of a document in a settings file is the last component of the path that it spells.  Such a
text names something in the directory of the documents, with one exception: a double dot is the last
component of the path that it spells too, and names the directory above.

* `Path.isBareName_iff`: which file names are bare names;
* `FileSystem.exists_child_iff`: where a file name leads from a directory;
* `Settings.bareNames_of_load`: both for the documents of every settings file;
* `Settings.escapes_upName`: settings with a name that leads out of the directory.
-/

namespace SchemaDocs

namespace Path

/-- Whether a text names something in a directory: it is no path, and it does not stand for the
directory itself or for the one above. -/
structure IsBareName (t : Text) : Prop where
  ne_nil : t ≠ []
  slash_notMem : ('/' : CodePoint) ∉ t
  ne_dot : t ≠ "."
  ne_up : t ≠ up

theorem isBareName_iff {t : Text} (h : IsFileName t) : IsBareName t ↔ t ≠ up := by
  obtain ⟨hne, hslash, hdot⟩ := isFileName_iff.mp h
  exact ⟨IsBareName.ne_up, fun hup => ⟨hne, hslash, hdot, hup⟩⟩

end Path

/-! ## Places in a directory -/

namespace FileSystem

theorem walk_concat {fs : FileSystem} {here there place : Location} {names : List Text}
    {name : Text} (hwalk : fs.walk here names = .ok there)
    (hchild : fs.child there name = .ok (place, some .directory)) :
    fs.walk here (names ++ [name]) = .ok place := by
  induction names generalizing here with
  | nil =>
      cases hwalk
      exact Results.bind_eq_ok.mpr ⟨_, hchild, rfl⟩
  | cons first rest ih =>
      obtain ⟨⟨next, found⟩, hfirst, hrest⟩ := Results.bind_eq_ok.mp hwalk
      refine Results.bind_eq_ok.mpr ⟨_, hfirst, ?_⟩
      cases found with
      | none => cases hrest
      | some node =>
          cases node with
          | file content => cases hrest
          | directory => exact ih hrest

theorem walk_of_locate {fs : FileSystem} {p : Path} {place : Location}
    (h : fs.locate p = .ok (place, some .directory)) :
    fs.walk (fs.start p) p.components = .ok place := by
  unfold locate at h
  split at h
  · cases h
  · split at h
    · next hlast =>
        cases h
        rw [List.getLast?_eq_none_iff.mp hlast]
        rfl
    · next name hlast =>
        obtain ⟨there, hwalk, hchild⟩ := Results.bind_eq_ok.mp h
        rw [← List.dropLast_append_getLast? name hlast]
        exact walk_concat hwalk hchild

theorem child_of_resolve_join {fs : FileSystem} {directory : Path} {name : Text}
    (hname : Path.IsFileName name) {here place : Location} {found : Option Node}
    (hdirectory : fs.resolve directory = .ok (here, some .directory))
    (h : fs.resolve (directory.join (.ofText name)) = .ok (place, found)) :
    fs.child here name = .ok (place, found) := by
  have hwalk := walk_of_locate (locate_of_resolve hdirectory)
  rw [Path.join_fileName hname] at h
  have hlocate := locate_of_resolve h
  unfold locate at hlocate
  split at hlocate
  · cases hlocate
  · rw [List.getLast?_concat, List.dropLast_concat] at hlocate
    obtain ⟨there, hthere, hchild⟩ := Results.bind_eq_ok.mp hlocate
    have hstart : fs.start ⟨directory.root, directory.components ++ [name]⟩ = fs.start directory :=
      rfl
    rw [hstart, hwalk] at hthere
    cases hthere
    exact hchild

theorem exists_child_iff {fs : FileSystem} {here place : Location} {name : Text}
    {found : Option Node} (h : fs.child here name = .ok (place, found)) :
    (∃ child, place = here ++ [child]) ↔ name ≠ Path.up := by
  unfold child at h
  split at h
  · next hup =>
      cases h
      refine iff_of_false ?_ fun hne => hne hup
      rintro ⟨child, hchild⟩
      have hlength := congrArg List.length hchild
      rw [List.length_dropLast, List.length_append, List.length_singleton] at hlength
      omega
  · next hup =>
      split at h
      · cases h
      · cases h
        exact iff_of_true ⟨_, rfl⟩ hup

end FileSystem

/-! ## The documents of settings -/

namespace Settings

open SchemaDocs.Path (IsBareName)

/-- However settings come about, a document of theirs has a bare name unless it is called by a
double dot, and exactly then its place is right below the directory of the documents, wherever that
is. -/
theorem bareNames_of_load {file : SettingsFile} {settings : Settings} {w v : World}
    (h : load file w = .ok settings v) {name : Text}
    (hname : name ∈ [settings.htmlFile, settings.markdownFile]) :
    (IsBareName name ↔ name ≠ Path.up) ∧
    ∀ directory : Path,
      ((directory.join (.ofText name)).parent = directory ∧
        (directory.join (.ofText name)).name = name) ∧
      ∀ (fs : FileSystem) here place found,
        fs.resolve directory = .ok (here, some .directory) →
        fs.resolve (directory.join (.ofText name)) = .ok (place, found) →
        ((∃ child, place = here ++ [child]) ↔ name ≠ Path.up) := by
  have hnames := fileNames_of_load h
  have hfile : Path.IsFileName name := by
    rcases List.mem_pair.mp hname with rfl | rfl
    · exact hnames.html
    · exact hnames.markdown
  refine ⟨Path.isBareName_iff hfile, fun directory =>
    ⟨⟨Path.parent_join_fileName hfile directory, Path.name_join_fileName hfile directory⟩, ?_⟩⟩
  intro fs here place found hdirectory hplace
  exact FileSystem.exists_child_iff (FileSystem.child_of_resolve_join hfile hdirectory hplace)

/-- The current directory with one for the documents, and with settings that call the page by a
double dot. -/
def upNameFiles : FileSystem where
  nodes := [(["docs"], .directory),
    (["prisma-docs.toml"],
      .file ((Text.ofString "[output]\nhtml = \"..\"").flatMap Utf8.encodeOne))]

theorem load_upNameFiles :
    ∃ settings, load .standard { files := upNameFiles } = .ok settings { files := upNameFiles } ∧
      settings.htmlFile = Path.up ∧ settings.directory = .ofText "docs" := by
  have hread : (match load .standard { files := upNameFiles } with
      | .ok settings _ =>
        decide (settings.htmlFile = Path.up) && decide (settings.directory = .ofText "docs")
      | .error _ _ => false) = true := by
    decide +kernel
  cases hload : load .standard { files := upNameFiles } with
  | error failure v => simp [hload] at hread
  | ok settings v =>
      rw [hload, Bool.and_eq_true, decide_eq_true_eq, decide_eq_true_eq] at hread
      cases load_eq_ok_world hload
      exact ⟨settings, rfl, hread⟩

theorem bareNames_of_load_upName :
    ∃ settings v name, load .standard { files := upNameFiles } = .ok settings v ∧
      name = Path.up ∧ name ∈ [settings.htmlFile, settings.markdownFile] ∧
      (IsBareName name ↔ name ≠ Path.up) ∧
      ∀ directory : Path,
        ((directory.join (.ofText name)).parent = directory ∧
          (directory.join (.ofText name)).name = name) ∧
        ∀ (fs : FileSystem) here place found,
          fs.resolve directory = .ok (here, some .directory) →
          fs.resolve (directory.join (.ofText name)) = .ok (place, found) →
          ((∃ child, place = here ++ [child]) ↔ name ≠ Path.up) := by
  obtain ⟨settings, hload, hname, -⟩ := load_upNameFiles
  exact ⟨settings, _, settings.htmlFile, hload, hname, List.mem_cons_self,
    bareNames_of_load hload List.mem_cons_self⟩

/-- The page of these settings would go to the directory above the one of the documents. -/
theorem escapes_upName :
    ∃ settings, load .standard { files := upNameFiles } = .ok settings { files := upNameFiles } ∧
      ¬ IsBareName settings.htmlFile ∧
      upNameFiles.resolve settings.directory = .ok (["docs"], some .directory) ∧
      upNameFiles.resolve (settings.directory.join (.ofText settings.htmlFile)) =
        .ok ([], some .directory) := by
  obtain ⟨settings, hload, hname, hdirectory⟩ := load_upNameFiles
  refine ⟨settings, hload, fun hbare => hbare.ne_up hname, ?_, ?_⟩
  · rw [hdirectory]
    rfl
  · rw [hdirectory, hname]
    rfl

end Settings

end SchemaDocs
