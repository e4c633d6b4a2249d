import SchemaDocs.Proofs.FileSystem.Contents
/-!
# Directories

A path that names a directory goes on naming it while files are written and directories are made.
Making a directory that may exist already leaves it there, and making it once more changes nothing.

* `IsDirectory.keeps`: a directory stays one;
* `isDirectory_of_makeDirectories`, `makeDirectories_of_isDirectory`: making directories twice.
-/

namespace SchemaDocs.FileSystem

def IsDirectory (fs : FileSystem) (p : Path) : Prop :=
  ∃ place, fs.resolve p = .ok (place, some .directory)

/-! ## Directories that stay -/

theorem KeepsDirectories.refl (fs : FileSystem) : KeepsDirectories fs fs :=
  ⟨rfl, fun _ h => h⟩

theorem KeepsDirectories.trans {fs gs hs : FileSystem} (h₁ : KeepsDirectories fs gs)
    (h₂ : KeepsDirectories gs hs) : KeepsDirectories fs hs :=
  ⟨h₂.current.trans h₁.current, fun place h => h₂.directory place (h₁.directory place h)⟩

theorem locate_directory {fs gs : FileSystem} (h : KeepsDirectories fs gs) {p : Path}
    {place : Location} (hlocate : fs.locate p = .ok (place, some .directory)) :
    gs.locate p = .ok (place, some .directory) := by
  have hstart : gs.start p = fs.start p := by rw [start, start, h.current]
  unfold locate at hlocate ⊢
  split at hlocate
  · cases hlocate
  · next hsize =>
      rw [if_neg hsize, hstart]
      cases hlast : p.components.getLast? with
      | none =>
          rw [hlast] at hlocate
          exact hlocate
      | some name =>
          rw [hlast] at hlocate
          obtain ⟨here, hwalk, hchild⟩ := Results.bind_eq_ok.mp hlocate
          exact Results.bind_eq_ok.mpr
            ⟨here, walk_directory h hwalk, child_directory h hchild⟩

theorem resolve_directory {fs gs : FileSystem} (h : KeepsDirectories fs gs) {p : Path}
    {place : Location} (hresolve : fs.resolve p = .ok (place, some .directory)) :
    gs.resolve p = .ok (place, some .directory) :=
  resolve_of_locate hresolve (locate_directory h (locate_of_resolve hresolve))

theorem IsDirectory.keeps {fs gs : FileSystem} {p : Path} (hp : fs.IsDirectory p)
    (h : KeepsDirectories fs gs) : gs.IsDirectory p := by
  obtain ⟨place, hresolve⟩ := hp
  exact ⟨place, resolve_directory h hresolve⟩

/-! ## What is there already -/

theorem contains_of_isDirectory {fs : FileSystem} {p : Path} (h : fs.IsDirectory p) :
    fs.contains p = .ok true := by
  obtain ⟨place, hresolve⟩ := h
  rw [contains, ask, hresolve]
  rfl

theorem isDirectory_eq_ok_true {fs : FileSystem} {p : Path} :
    fs.isDirectory p = .ok true ↔ fs.IsDirectory p := by
  unfold isDirectory ask
  constructor
  · intro h
    split at h
    · next place found hresolve =>
        dsimp only at h
        split at h
        · exact ⟨place, hresolve⟩
        · cases h
    · cases h
    · cases h
  · rintro ⟨place, hresolve⟩
    rw [hresolve]

theorem createDirectory_of_isDirectory {fs : FileSystem} {p : Path} (h : fs.IsDirectory p) :
    fs.createDirectory p = .error (.refused .fileExists p) := by
  obtain ⟨place, hresolve⟩ := h
  rw [createDirectory, hresolve]

theorem settle_of_isDirectory {fs : FileSystem} {p : Path} (h : fs.IsDirectory p)
    (cause : FileCause) : fs.settle p true (.refused cause p) = (fs, .ok ()) := by
  simp only [settle, if_true, isDirectory_eq_ok_true.mpr h]

theorem makeDirectories_of_isDirectory {fs : FileSystem} {p : Path} (h : fs.IsDirectory p) :
    fs.makeDirectories p true = (fs, .ok ()) := by
  have hcreate := createDirectory_of_isDirectory h
  have hsettle := settle_of_isDirectory h .fileExists
  obtain ⟨root, components⟩ := p
  unfold makeDirectories
  dsimp only
  cases hnames : components.reverse with
  | nil =>
      rw [List.reverse_eq_nil_iff.mp hnames] at hcreate hsettle
      rw [makeDirectoriesUp, makeDirectory, hcreate]
      exact hsettle
  | cons name above =>
      have hpath : (name :: above).reverse = components := by rw [← hnames, List.reverse_reverse]
      rw [makeDirectoriesUp, hpath, hcreate]
      exact hsettle

/-! ## Making directories -/

theorem createDirectory_eq_ok {fs made : FileSystem} {p : Path}
    (h : fs.createDirectory p = .ok made) :
    KeepsDirectories fs made ∧ made.IsDirectory p := by
  unfold createDirectory at h
  split at h
  · next place hresolve =>
      cases h
      have hnone : (none : Option Node) ≠ some .directory := nofun
      rcases resolve_eq_ok hresolve with hfound | ⟨hplace, hfound⟩
      · cases hfound
      · have hkeeps := keepsDirectories_set (hfound ▸ hnone) .directory
        refine ⟨hkeeps, place, ?_⟩
        rw [resolve_keepsDirectories hkeeps hresolve hnone, find?_set_self hplace]
  · cases h
  · cases h

theorem settle_eq_ok {fs made : FileSystem} {p : Path} {mayExist : Bool} {error : FileError}
    (h : fs.settle p mayExist error = (made, .ok ())) : made = fs ∧ fs.IsDirectory p := by
  unfold settle at h
  split at h
  · split at h
    · split at h
      · next hdirectory =>
          cases h
          exact ⟨rfl, isDirectory_eq_ok_true.mp hdirectory⟩
      · cases h
      · cases h
    · cases h
  · cases h

theorem keepsDirectories_makeDirectory (fs : FileSystem) (p : Path) (mayExist : Bool) :
    KeepsDirectories fs (fs.makeDirectory p mayExist).1 := by
  unfold makeDirectory
  split
  · next hmade => exact (createDirectory_eq_ok hmade).1
  · exact .refl fs
  · rw [settle_fst]
    exact .refl fs

theorem isDirectory_of_makeDirectory {fs made : FileSystem} {p : Path} {mayExist : Bool}
    (h : fs.makeDirectory p mayExist = (made, .ok ())) : made.IsDirectory p := by
  unfold makeDirectory at h
  split at h
  · next hmade =>
      cases h
      exact (createDirectory_eq_ok hmade).2
  · cases h
  · obtain ⟨rfl, hdirectory⟩ := settle_eq_ok h
    exact hdirectory

theorem keepsDirectories_makeDirectoriesUp (root : Text) (mayExist : Bool) (names : List Text)
    (fs : FileSystem) : KeepsDirectories fs (makeDirectoriesUp root mayExist names fs).1 := by
  induction names generalizing mayExist fs with
  | nil => exact keepsDirectories_makeDirectory fs _ mayExist
  | cons name above ih =>
      have habove := ih true fs
      unfold makeDirectoriesUp
      dsimp only
      split
      · next hmade => exact (createDirectory_eq_ok hmade).1
      · split
        · next hmade =>
            rw [hmade] at habove
            exact habove.trans (keepsDirectories_makeDirectory _ _ mayExist)
        · exact habove
      · rw [settle_fst]
        exact .refl fs

theorem keepsDirectories_makeDirectories (fs : FileSystem) (p : Path) (mayExist : Bool) :
    KeepsDirectories fs (fs.makeDirectories p mayExist).1 :=
  keepsDirectories_makeDirectoriesUp p.root mayExist p.components.reverse fs

theorem isDirectory_of_makeDirectories {fs made : FileSystem} {p : Path} {mayExist : Bool}
    (h : fs.makeDirectories p mayExist = (made, .ok ())) : made.IsDirectory p := by
  obtain ⟨root, components⟩ := p
  unfold makeDirectories at h
  dsimp only at h
  cases hnames : components.reverse with
  | nil =>
      rw [hnames, makeDirectoriesUp] at h
      rw [List.reverse_eq_nil_iff.mp hnames]
      exact isDirectory_of_makeDirectory h
  | cons name above =>
      have hpath : (name :: above).reverse = components := by rw [← hnames, List.reverse_reverse]
      rw [hnames, makeDirectoriesUp, hpath] at h
      split at h
      · next hmade =>
          cases h
          exact (createDirectory_eq_ok hmade).2
      · split at h
        · exact isDirectory_of_makeDirectory h
        · next hfailed => exact absurd h (hfailed made)
      · obtain ⟨rfl, hdirectory⟩ := settle_eq_ok h
        exact hdirectory

end SchemaDocs.FileSystem
