import SchemaDocs.Proofs.CommandLine.RunStages
/-!
# Runs that spare what they read

A run reads a settings file and a schema file and writes documents.  If no document goes to the
place of a file that was read, both files are there afterwards, and what was built from them can be
built again.  A run that found no settings file under the default name does not make one.

* `Invocation.SparesInputs`: whether no file that is written is one that was read;
* `Invocation.Builds.after`: what a run has built can be built from the files that it leaves.
-/

namespace SchemaDocs

open FileSystem (KeepsDirectories KeepsFile Puts SameFiles)
open SchemaDocs.Path (IsFileName)

namespace FileSystem

variable {fs gs : FileSystem} {p q : Path}

/-! ## Names of files -/

/-- Whether a path of one tree and a path of another one name a file at the same place. -/
def NamesSameFile (before : FileSystem) (p : Path) (after : FileSystem) (q : Path) : Prop :=
  ∃ place bytes content, before.resolve p = .ok (place, some (.file bytes)) ∧
    after.resolve q = .ok (place, some (.file content))

theorem getLast?_place {place : Location} {found : Option Node}
    (h : fs.resolve p = .ok (place, found)) (hfound : found ≠ some .directory) :
    place.getLast? = some (Name.listed p.name) := by
  obtain ⟨name, here, hlast, -, hchild⟩ := resolve_of_ne_directory h hfound
  rw [(child_of_ne_directory hchild hfound).1, List.getLast?_concat, Path.name, hlast,
    Option.getD_some]

theorem NamesSameFile.listed_name (h : NamesSameFile fs p gs q) :
    Name.listed p.name = Name.listed q.name := by
  obtain ⟨place, bytes, content, hp, hq⟩ := h
  have hfirst := getLast?_place hp nofun
  have hsecond := getLast?_place hq nofun
  exact Option.some.inj (hfirst.symm.trans hsecond)

/-! ## Files that are not written -/

variable {targets : List (Path × Text)} {puts : List (Location × Bytes)}

theorem free_of_puts (hputs : List.Forall₂ gs.Puts targets puts) {e : Location × Bytes}
    (he : e ∈ puts) : gs.find? e.1 ≠ some .directory := by
  obtain ⟨t, -, ht⟩ := Results.exists_of_mem_right hputs he
  exact ht.free

theorem exists_find?_setFiles (fs : FileSystem) (hputs : ∀ e ∈ puts, e.1 ≠ []) {l : Location}
    (hl : l ∈ puts.map Prod.fst) :
    ∃ content, (fs.setFiles puts).find? l = some (.file content) := by
  induction puts generalizing fs with
  | nil => exact absurd hl List.not_mem_nil
  | cons e rest ih =>
      obtain ⟨he, hrest⟩ := List.forall_mem_cons.mp hputs
      by_cases hlater : l ∈ rest.map Prod.fst
      · exact ih _ hrest hlater
      · obtain rfl : l = e.1 := (List.mem_cons.mp hl).resolve_right hlater
        have hfound : (fs.setFiles (e :: rest)).find? e.1 = some (.file e.2) :=
          (find?_setFiles_of_notMem hrest hlater).trans (find?_set_self he fs _)
        exact ⟨e.2, hfound⟩

theorem keepsFile_setFiles (hfiles : SameFiles fs gs) (hdirectories : KeepsDirectories fs gs)
    (hputs : List.Forall₂ gs.Puts targets puts)
    (hspared : ∀ t ∈ targets, ¬ NamesSameFile fs p (gs.setFiles puts) t.1) :
    KeepsFile p fs (gs.setFiles puts) := by
  have hfree : ∀ e ∈ puts, gs.find? e.1 ≠ some .directory := fun e => free_of_puts hputs
  have hne : ∀ e ∈ puts, e.1 ≠ [] := fun e he => ne_nil_of_free (hfree e he)
  have hkeeps := keepsDirectories_setFiles hfree
  intro bytes hbytes
  obtain ⟨place, hresolve⟩ := read_eq_ok_iff.mp hbytes
  have hplace : place ∉ puts.map Prod.fst := by
    intro hmem
    obtain ⟨content, hcontent⟩ := exists_find?_setFiles gs hne hmem
    obtain ⟨e, he, rfl⟩ := List.mem_map.mp hmem
    obtain ⟨t, ht, hput⟩ := Results.exists_of_mem_right hputs he
    have htarget := resolve_keepsDirectories hkeeps hput.place hput.free
    rw [hcontent] at htarget
    exact hspared t ht ⟨e.1, bytes, content, hresolve, htarget⟩
  have hfound : fs.find? place = some (.file bytes) := by
    rcases resolve_eq_ok hresolve with h | ⟨-, h⟩
    · cases h
    · exact h
  have hafter := resolve_keepsDirectories (hdirectories.trans hkeeps) hresolve nofun
  rw [find?_setFiles_of_notMem hne hplace, (hfiles place bytes).mpr hfound] at hafter
  exact read_of_resolve hafter

end FileSystem

/-! ## The default settings file -/

namespace Settings

variable {fs gs : FileSystem} {targets : List (Path × Text)} {puts : List (Location × Bytes)}

theorem isFile_defaultFile_setFiles (hfiles : SameFiles fs gs)
    (hdirectories : KeepsDirectories fs gs) (hputs : List.Forall₂ gs.Puts targets puts)
    (hnames : ∀ t ∈ targets, FileSystem.Name.listed t.1.name ≠ defaultFile.name)
    (hmissing : fs.isFile defaultFile = .ok false) :
    (gs.setFiles puts).isFile defaultFile = .ok false := by
  have hne : ∀ e ∈ puts, e.1 ≠ [] := fun e he =>
    FileSystem.ne_nil_of_free (FileSystem.free_of_puts hputs he)
  have hplace : gs.current ++ [defaultFile.name] ∉ puts.map Prod.fst := by
    intro hmem
    obtain ⟨e, he, heq⟩ := List.mem_map.mp hmem
    obtain ⟨t, ht, hput⟩ := Results.exists_of_mem_right hputs he
    have hlast := FileSystem.getLast?_place hput.place hput.free
    rw [heq, List.getLast?_concat] at hlast
    exact hnames t ht (Option.some.inj hlast).symm
  rw [isFile_defaultFile_iff] at hmissing ⊢
  intro bytes
  rw [FileSystem.current_setFiles, FileSystem.find?_setFiles_of_notMem hne hplace,
    hdirectories.current]
  exact fun hfound => hmissing bytes ((hfiles _ bytes).mp hfound)

end Settings

/-! ## Inputs and outputs -/

namespace CommandLine.Invocation

variable {i j : Invocation} {settings : Settings} {d : DocumentPair}

def inputs (i : Invocation) (settings : Settings) : List Path :=
  [i.settingsPath, i.schemaPath settings]

/-- Whether no file that an invocation writes is one that it reads: the files that it reads are
those of the tree before it, and those that it writes are in the tree after it. -/
def SparesInputs (i : Invocation) (before after : FileSystem) : Prop :=
  ∀ settings w, Settings.load i.options.config { files := before } = .ok settings w →
    ∀ p ∈ i.inputs settings, ∀ q ∈ i.outputs settings, ¬ FileSystem.NamesSameFile before p after q

theorem sparesInputs_of_listed_name {before : FileSystem}
    (h : ∀ settings w, Settings.load i.options.config { files := before } = .ok settings w →
      ∀ p ∈ i.inputs settings, ∀ q ∈ i.outputs settings,
        FileSystem.Name.listed p.name ≠ FileSystem.Name.listed q.name) (after : FileSystem) :
    i.SparesInputs before after :=
  fun settings w hload p hp q hq hsame => h settings w hload p hp q hq hsame.listed_name

theorem load_again {w v : World} (h : Settings.load i.options.config w = .ok settings w)
    (hkept : KeepsFile i.settingsPath w.files v.files)
    (hmissing : settings = {} → w.files.isFile Settings.defaultFile = .ok false →
      v.files.isFile Settings.defaultFile = .ok false) :
    Settings.load i.options.config v = .ok settings v := by
  unfold settingsPath at hkept
  cases hconfig : i.options.config with
  | named p =>
      rw [hconfig] at h hkept
      exact Settings.loadFile_of_keepsFile h hkept
  | standard =>
      rw [hconfig] at h hkept
      refine Settings.load_standard_eq_ok_iff.mpr ?_
      rcases Settings.load_standard_eq_ok_iff.mp h with ⟨-, hfile⟩ | ⟨hfound, hdefaults, -⟩
      · obtain ⟨⟨bytes, t, hbytes, -⟩, -⟩ := Settings.loadFile_eq_ok_iff.mp hfile
        exact .inl ⟨FileSystem.isFile_of_read (hkept bytes hbytes),
          Settings.loadFile_of_keepsFile hfile hkept⟩
      · exact .inr ⟨hmissing hdefaults hfound, hdefaults, rfl⟩

theorem listed_name_ne_defaultFile {p : Path} (hp : p ∈ i.outputs {}) :
    FileSystem.Name.listed p.name ≠ Settings.defaultFile.name := by
  obtain ⟨name, hdefault, hname, rfl⟩ := exists_name_of_mem_outputs Settings.fileNames_defaults hp
  rw [Path.name_join_fileName hname]
  rcases hdefault with rfl | rfl
  · decide
  · decide

/-- What was built can be built after the documents are put in their files, if these are not those
that were read. -/
theorem Builds.after {files : FileSystem} (h : i.Builds { files } settings d)
    (hoptions : j.options = i.options) {u v : World} (hfiles : SameFiles files u.files)
    (hdirectories : KeepsDirectories files u.files) {puts : List (Location × Bytes)}
    (hputs : List.Forall₂ u.files.Puts (i.targets settings d) puts)
    (hspared : i.SparesInputs files (u.files.setFiles puts))
    (hv : v.files = u.files.setFiles puts) : j.Builds v settings d := by
  have hload := (builds_iff.mp h).1
  have houtputs : ∀ t ∈ i.targets settings d, t.1 ∈ i.outputs settings := by
    intro t ht
    rw [← map_fst_targets (d := d)]
    exact List.mem_map_of_mem ht
  have hkept : ∀ p ∈ i.inputs settings, KeepsFile p files v.files := by
    intro p hp
    rw [hv]
    exact FileSystem.keepsFile_setFiles hfiles hdirectories hputs fun t ht =>
      hspared settings _ hload p hp t.1 (houtputs t ht)
  refine h.again hoptions (load_again hload (hkept _ (by simp [inputs])) ?_)
    (hkept _ (by simp [inputs]))
  rintro rfl hmissing
  rw [hv]
  exact Settings.isFile_defaultFile_setFiles hfiles hdirectories hputs
    (fun t ht => listed_name_ne_defaultFile (houtputs t ht)) hmissing

end CommandLine.Invocation

end SchemaDocs
