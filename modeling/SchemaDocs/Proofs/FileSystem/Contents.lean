import SchemaDocs.Proofs.FileSystem.SameFiles
import SchemaDocs.Proofs.Path
import SchemaDocs.Proofs.Text.Utf8
/-!
# What files hold

Writing a file makes no directory and takes none away, so a path that named a file before names the
same place afterwards.  A file that was written holds its text until a path with the same place is
written.

* `holds_set`, `read_set`: what a file holds after it was written, and after another write;
* `canOpen_set`: a file that can be written can be written after another one.
-/

namespace SchemaDocs.FileSystem

open SchemaDocs.Path (IsFileName)

/-- Whether a path names a file with the bytes of a text. -/
def Holds (fs : FileSystem) (p : Path) (t : Text) : Prop :=
  ∃ bytes, Utf8.encode t = .ok bytes ∧ fs.read p = .ok bytes

/-! ## Directories that stay -/

/-- Whether what is a directory in one tree is one in another, with the same current directory. -/
structure KeepsDirectories (before after : FileSystem) : Prop where
  current : after.current = before.current
  directory : ∀ place, before.find? place = some .directory →
    after.find? place = some .directory

theorem keepsDirectories_set {fs : FileSystem} {place : Location}
    (hplace : fs.find? place ≠ some .directory) (node : Node) :
    KeepsDirectories fs (fs.set place node) where
  current := rfl
  directory := by
    intro l hl
    -- The top of the tree is a directory, so a place that is none lies below it.
    have hne : place ≠ [] := by
      rintro rfl
      exact hplace rfl
    have hother : l ≠ place := by
      rintro rfl
      exact hplace hl
    rw [find?_set hne, if_neg hother, hl]

theorem child_directory {fs gs : FileSystem} (h : KeepsDirectories fs gs) {here there : Location}
    {name : Text} (hchild : fs.child here name = .ok (there, some .directory)) :
    gs.child here name = .ok (there, some .directory) := by
  unfold child at hchild ⊢
  split at hchild
  · next hup => rw [if_pos hup, hchild]
  · next hup =>
      rw [if_neg hup]
      split at hchild
      · cases hchild
      · next hsize =>
          obtain ⟨rfl, hfound⟩ := Prod.mk.inj (Except.ok.inj hchild)
          rw [if_neg hsize]
          simp only [h.directory _ hfound]

theorem walk_directory {fs gs : FileSystem} (h : KeepsDirectories fs gs) {here there : Location}
    {names : List Text} (hwalk : fs.walk here names = .ok there) :
    gs.walk here names = .ok there := by
  induction names generalizing here with
  | nil => exact hwalk
  | cons name rest ih =>
      obtain ⟨⟨next, found⟩, hchild, hwalk⟩ := Results.bind_eq_ok.mp hwalk
      rw [walk]
      cases found with
      | none => cases hwalk
      | some node =>
          cases node with
          | file content => cases hwalk
          | directory => exact Results.bind_eq_ok.mpr ⟨_, child_directory h hchild, ih hwalk⟩

/-! ## Places of files -/

theorem child_of_ne_directory {fs : FileSystem} {here place : Location} {name : Text}
    {found : Option Node} (h : fs.child here name = .ok (place, found))
    (hfound : found ≠ some .directory) :
    place = here ++ [Name.listed name] ∧
      ∀ gs : FileSystem, gs.child here name = .ok (place, gs.find? place) := by
  unfold child at h
  split at h
  · cases h
    exact absurd rfl hfound
  · next hup =>
      split at h
      · cases h
      · next hsize =>
          cases h
          refine ⟨rfl, fun gs => ?_⟩
          rw [child, if_neg hup, if_neg hsize]

theorem resolve_of_ne_directory {fs : FileSystem} {p : Path} {place : Location}
    {found : Option Node} (h : fs.resolve p = .ok (place, found))
    (hfound : found ≠ some .directory) :
    ∃ name here, p.components.getLast? = some name ∧
      fs.walk (fs.start p) p.components.dropLast = .ok here ∧
      fs.child here name = .ok (place, found) := by
  have hlocate := locate_of_resolve h
  unfold locate at hlocate
  split at hlocate
  · cases hlocate
  · split at hlocate
    · cases hlocate
      exact absurd rfl hfound
    · next name hlast =>
        obtain ⟨here, hwalk, hchild⟩ := Results.bind_eq_ok.mp hlocate
        exact ⟨name, here, hlast, hwalk, hchild⟩

theorem resolve_keepsDirectories {fs gs : FileSystem} (h : KeepsDirectories fs gs) {p : Path}
    {place : Location} {found : Option Node} (hresolve : fs.resolve p = .ok (place, found))
    (hfound : found ≠ some .directory) : gs.resolve p = .ok (place, gs.find? place) := by
  obtain ⟨name, here, hlast, hwalk, hchild⟩ := resolve_of_ne_directory hresolve hfound
  have hstart : gs.start p = fs.start p := by rw [start, start, h.current]
  have hlocate := locate_of_resolve hresolve
  refine resolve_of_locate hresolve ?_
  unfold locate at hlocate
  split at hlocate
  · cases hlocate
  · next hsize =>
      rw [locate, if_neg hsize, hlast, hstart]
      exact Results.bind_eq_ok.mpr
        ⟨here, walk_directory h hwalk, (child_of_ne_directory hchild hfound).2 gs⟩

theorem place_eq_iff {fs : FileSystem} {directory : Path} {name other : Text}
    (hname : IsFileName name) (hother : IsFileName other) {place otherPlace : Location}
    {found otherFound : Option Node}
    (h : fs.resolve (directory.join (.ofText name)) = .ok (place, found))
    (hfound : found ≠ some .directory)
    (h' : fs.resolve (directory.join (.ofText other)) = .ok (otherPlace, otherFound))
    (hfound' : otherFound ≠ some .directory) :
    place = otherPlace ↔ Name.listed name = Name.listed other := by
  rw [Path.join_fileName hname] at h
  rw [Path.join_fileName hother] at h'
  obtain ⟨last, here, hlast, hwalk, hchild⟩ := resolve_of_ne_directory h hfound
  obtain ⟨last', here', hlast', hwalk', hchild'⟩ := resolve_of_ne_directory h' hfound'
  simp only [List.getLast?_concat, Option.some.injEq, List.dropLast_concat]
    at hlast hwalk hlast' hwalk'
  have hhere : here' = here := by
    rw [show fs.start ⟨directory.root, directory.components ++ [other]⟩ =
      fs.start ⟨directory.root, directory.components ++ [name]⟩ from rfl, hwalk] at hwalk'
    exact (Except.ok.inj hwalk').symm
  rw [(child_of_ne_directory hchild hfound).1, (child_of_ne_directory hchild' hfound').1, hhere,
    ← hlast, ← hlast']
  simp

/-! ## Opening -/

def CanOpen (fs : FileSystem) (p : Path) : Prop :=
  ∃ opened place, fs.openForWriting p = .ok (opened, place)

instance (fs : FileSystem) (p : Path) : Decidable (fs.CanOpen p) :=
  match h : fs.openForWriting p with
  | .ok (opened, place) => isTrue ⟨opened, place, h⟩
  | .error _ => isFalse fun ⟨_, _, hopen⟩ => nomatch h.symm.trans hopen

theorem canOpen_of_resolve {fs : FileSystem} {p : Path} {place : Location} {found : Option Node}
    (h : fs.resolve p = .ok (place, found)) (hfound : found ≠ some .directory) : fs.CanOpen p := by
  cases hopen : fs.openForWriting p with
  | error error => exact absurd (openForWriting_eq_error hopen h) hfound
  | ok result => exact ⟨_, _, hopen⟩

theorem canOpen_set {fs : FileSystem} {p : Path} (h : fs.CanOpen p) {other : Location}
    (hother : fs.find? other ≠ some .directory) (bytes : Bytes) :
    (fs.set other (.file bytes)).CanOpen p := by
  obtain ⟨opened, place, hopen⟩ := h
  obtain ⟨-, hdirectory, hresolve, -⟩ := openForWriting_eq_ok hopen
  have hplace : other ≠ [] := by
    rintro rfl
    exact hother rfl
  refine canOpen_of_resolve
    (resolve_keepsDirectories (keepsDirectories_set hother _) hresolve hdirectory) ?_
  rw [find?_set hplace]
  split
  · simp
  · exact hdirectory

/-! ## Reading what was written -/

theorem read_of_resolve {fs : FileSystem} {p : Path} {place : Location} {bytes : Bytes}
    (h : fs.resolve p = .ok (place, some (.file bytes))) : fs.read p = .ok bytes := by
  rw [read, h]

theorem resolve_set {fs opened : FileSystem} {p : Path} {place : Location}
    (h : fs.openForWriting p = .ok (opened, place)) (bytes : Bytes) :
    (fs.set place (.file bytes)).resolve p = .ok (place, some (.file bytes)) := by
  obtain ⟨hplace, hdirectory, hresolve, -⟩ := openForWriting_eq_ok h
  rw [resolve_keepsDirectories (keepsDirectories_set hdirectory _) hresolve hdirectory,
    find?_set_self hplace]

theorem holds_set {fs opened : FileSystem} {p : Path} {place : Location}
    (h : fs.openForWriting p = .ok (opened, place)) {t : Text} {bytes : Bytes}
    (ht : Utf8.encode t = .ok bytes) : (fs.set place (.file bytes)).Holds p t :=
  ⟨bytes, ht, read_of_resolve (resolve_set h bytes)⟩

theorem read_set {fs : FileSystem} {p : Path} {place other : Location} {content : Bytes}
    (h : fs.resolve p = .ok (place, some (.file content)))
    (hother : fs.find? other ≠ some .directory) (bytes : Bytes) :
    (fs.set other (.file bytes)).read p = .ok (if place = other then bytes else content) := by
  have hfound : some (Node.file content) ≠ some .directory := by simp
  have hplace : other ≠ [] := by
    rintro rfl
    exact hother rfl
  have hkept : fs.find? place = some (.file content) := by
    rcases resolve_eq_ok h with hdirectory | ⟨-, hkept⟩
    · exact absurd hdirectory hfound
    · exact hkept
  have hresolve := resolve_keepsDirectories
    (keepsDirectories_set hother (.file bytes)) h hfound
  rw [find?_set hplace, hkept] at hresolve
  by_cases heq : place = other
  · rw [if_pos heq] at hresolve ⊢
    exact read_of_resolve hresolve
  · rw [if_neg heq] at hresolve ⊢
    exact read_of_resolve hresolve

end SchemaDocs.FileSystem
