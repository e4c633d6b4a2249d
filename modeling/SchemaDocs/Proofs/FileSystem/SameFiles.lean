import Mathlib.Order.Defs.Unbundled
import SchemaDocs.FileSystem.Operations
import SchemaDocs.Proofs.Results
/-!
# Files that stay as they are

Two trees have the same files if every place that is a file in one of them is a file with the same
content in the other.  Making directories keeps the files; making a file changes the tree at its
place only.

* `sameFiles_makeDirectories`: directories are made where nothing was.
-/

namespace SchemaDocs.FileSystem

/-! ## Nodes -/

theorem nodeAt?_setNode (place l : Location) (node : Node) (nodes : List (Location × Node)) :
    nodeAt? l (setNode place node nodes) = if l = place then some node else nodeAt? l nodes := by
  induction nodes with
  | nil => simp only [setNode, nodeAt?, eq_comm (a := place)]
  | cons e rest ih =>
      rw [setNode]
      by_cases he : e.1 = place
      · rw [if_pos he, nodeAt?, nodeAt?, he]
        simp only [eq_comm (a := place)]
        split <;> rfl
      · rw [if_neg he, nodeAt?, nodeAt?, ih]
        by_cases hl : e.1 = l
        · rw [if_pos hl, if_pos hl, if_neg (hl ▸ he)]
        · rw [if_neg hl, if_neg hl]

theorem find?_set {place : Location} (hplace : place ≠ []) (fs : FileSystem) (node : Node)
    (l : Location) :
    (fs.set place node).find? l = if l = place then some node else fs.find? l := by
  unfold find? set
  cases l with
  | nil =>
      rw [if_neg (Ne.symm hplace)]
      rfl
  | cons name rest => exact nodeAt?_setNode place (name :: rest) node fs.nodes

theorem find?_set_self {place : Location} (hplace : place ≠ []) (fs : FileSystem) (node : Node) :
    (fs.set place node).find? place = some node := by
  rw [find?_set hplace, if_pos rfl]

theorem setNode_setNode (place : Location) (first second : Node)
    (nodes : List (Location × Node)) :
    setNode place second (setNode place first nodes) = setNode place second nodes := by
  induction nodes with
  | nil => simp [setNode]
  | cons e rest ih =>
      simp only [setNode]
      by_cases he : e.1 = place
      · simp [he, setNode]
      · simp [he, setNode, ih]

theorem set_set (fs : FileSystem) (place : Location) (first second : Node) :
    (fs.set place first).set place second = fs.set place second := by
  unfold set
  rw [setNode_setNode]

/-! ## Places that paths name -/

theorem child_eq_ok {fs : FileSystem} {here place : Location} {name : Text} {found : Option Node}
    (h : fs.child here name = .ok (place, found)) :
    found = some .directory ∨ place ≠ [] ∧ fs.find? place = found := by
  unfold child at h
  split at h
  · cases h
    exact .inl rfl
  · split at h
    · cases h
    · cases h
      exact .inr ⟨by simp, rfl⟩

theorem locate_eq_ok {fs : FileSystem} {p : Path} {place : Location} {found : Option Node}
    (h : fs.locate p = .ok (place, found)) :
    found = some .directory ∨ place ≠ [] ∧ fs.find? place = found := by
  unfold locate at h
  split at h
  · cases h
  · split at h
    · cases h
      exact .inl rfl
    · obtain ⟨here, -, hchild⟩ := Results.bind_eq_ok.mp h
      exact child_eq_ok hchild

theorem locate_of_resolve {fs : FileSystem} {p : Path} {result : Location × Option Node}
    (h : fs.resolve p = .ok result) : fs.locate p = .ok result := by
  unfold resolve at h
  split at h
  · cases h
  · split at h
    · cases h
    · exact Results.mapError_eq_ok.mp h

theorem resolve_of_locate {fs gs : FileSystem} {p : Path} {before after : Location × Option Node}
    (h : fs.resolve p = .ok before) (hlocate : gs.locate p = .ok after) :
    gs.resolve p = .ok after := by
  unfold resolve at h ⊢
  split at h
  · cases h
  · split at h
    · cases h
    · next hnull =>
        rw [if_neg hnull]
        exact Results.mapError_eq_ok.mpr hlocate

theorem resolve_eq_ok {fs : FileSystem} {p : Path} {place : Location} {found : Option Node}
    (h : fs.resolve p = .ok (place, found)) :
    found = some .directory ∨ place ≠ [] ∧ fs.find? place = found :=
  locate_eq_ok (locate_of_resolve h)

/-! ## Trees with the same files -/

/-- Whether the same places are files, with the same content. -/
def SameFiles (before after : FileSystem) : Prop :=
  ∀ place content, after.find? place = some (.file content) ↔
    before.find? place = some (.file content)

theorem SameFiles.refl (fs : FileSystem) : SameFiles fs fs := fun _ _ => Iff.rfl

theorem SameFiles.trans {fs gs hs : FileSystem} (h₁ : SameFiles fs gs) (h₂ : SameFiles gs hs) :
    SameFiles fs hs := fun place content => (h₂ place content).trans (h₁ place content)

theorem SameFiles.symm {fs gs : FileSystem} (h : SameFiles fs gs) : SameFiles gs fs :=
  fun place content => (h place content).symm

instance : Std.Refl SameFiles := ⟨SameFiles.refl⟩

instance : IsTrans FileSystem SameFiles := ⟨fun _ _ _ => SameFiles.trans⟩

theorem sameFiles_set_directory {fs : FileSystem} {place : Location} (hplace : place ≠ [])
    (hnone : fs.find? place = none) : SameFiles fs (fs.set place .directory) := by
  intro l content
  rw [find?_set hplace]
  split
  · next heq =>
      rw [heq, hnone]
      constructor
      · intro h
        cases h
      · intro h
        cases h
  · exact Iff.rfl

theorem sameFiles_set_file_iff {fs : FileSystem} {place : Location} {content : Bytes}
    (hplace : place ≠ []) :
    SameFiles fs (fs.set place (.file content)) ↔ fs.find? place = some (.file content) := by
  constructor
  · intro h
    exact (h place content).mp (find?_set_self hplace fs _)
  · intro h l other
    rw [find?_set hplace]
    split
    · next heq => rw [heq, h]
    · exact Iff.rfl

/-! ## Making directories -/

theorem sameFiles_createDirectory {fs made : FileSystem} {p : Path}
    (h : fs.createDirectory p = .ok made) : SameFiles fs made := by
  unfold createDirectory at h
  split at h
  · next place hresolve =>
      cases h
      rcases resolve_eq_ok hresolve with hfound | ⟨hplace, hnone⟩
      · cases hfound
      · exact sameFiles_set_directory hplace hnone
  · cases h
  · cases h

theorem settle_fst (fs : FileSystem) (p : Path) (mayExist : Bool) (error : FileError) :
    (fs.settle p mayExist error).1 = fs := by
  unfold settle
  split
  · split
    · split <;> rfl
    · rfl
  · rfl

theorem sameFiles_makeDirectory (fs : FileSystem) (p : Path) (mayExist : Bool) :
    SameFiles fs (fs.makeDirectory p mayExist).1 := by
  unfold makeDirectory
  split
  · next hmade => exact sameFiles_createDirectory hmade
  · exact .refl fs
  · rw [settle_fst]
    exact .refl fs

theorem sameFiles_makeDirectoriesUp (root : Text) (mayExist : Bool) (names : List Text)
    (fs : FileSystem) : SameFiles fs (makeDirectoriesUp root mayExist names fs).1 := by
  induction names generalizing mayExist fs with
  | nil => exact sameFiles_makeDirectory fs _ mayExist
  | cons name above ih =>
      have habove := ih true fs
      unfold makeDirectoriesUp
      dsimp only
      split
      · next hmade => exact sameFiles_createDirectory hmade
      · split
        · next hmade =>
            rw [hmade] at habove
            exact habove.trans (sameFiles_makeDirectory _ _ mayExist)
        · exact habove
      · rw [settle_fst]
        exact .refl fs

theorem sameFiles_makeDirectories (fs : FileSystem) (p : Path) (mayExist : Bool) :
    SameFiles fs (fs.makeDirectories p mayExist).1 :=
  sameFiles_makeDirectoriesUp p.root mayExist p.components.reverse fs

/-! ## Opening files -/

theorem openForWriting_eq_ok {fs opened : FileSystem} {p : Path} {place : Location}
    (h : fs.openForWriting p = .ok (opened, place)) :
    place ≠ [] ∧ fs.find? place ≠ some .directory ∧ fs.resolve p = .ok (place, fs.find? place) ∧
      opened = fs.set place (.file []) := by
  unfold openForWriting at h
  split at h
  · cases h
  · next place found hdirectory hresolve =>
      cases h
      rcases resolve_eq_ok hresolve with hfound | ⟨hplace, hfound⟩
      · exact absurd hfound hdirectory
      · subst hfound
        exact ⟨hplace, hdirectory, hresolve, rfl⟩
  · cases h

theorem openForWriting_eq_error {fs : FileSystem} {p : Path} {error : FileError}
    (h : fs.openForWriting p = .error error) {place : Location} {found : Option Node}
    (hresolve : fs.resolve p = .ok (place, found)) : found = some .directory := by
  unfold openForWriting at h
  rw [hresolve] at h
  cases found with
  | none => cases h
  | some node =>
      cases node with
      | directory => rfl
      | file content => cases h

end SchemaDocs.FileSystem
