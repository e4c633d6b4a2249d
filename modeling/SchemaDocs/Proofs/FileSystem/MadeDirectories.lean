import SchemaDocs.Proofs.FileSystem.Directories
/-!
# The directories that are made

Making a directory and those above it adds directories on the path to it, whether it succeeds or
fails on the way, and leaves everything else as it is.

* `MakesOn`: what a step that makes directories on some paths does to a tree;
* `makesOn_makeDirectories`: all that making directories does.
-/

namespace SchemaDocs.FileSystem

/-- Whether a place is a directory to which a path leads, or an initial part of one. -/
def LiesOn (fs : FileSystem) (p : Path) (place : Location) : Prop :=
  ∃ names, names <+: p.components ∧ fs.resolve ⟨p.root, names⟩ = .ok (place, some .directory)

/-- Whether a tree has come out of another one by directories that were made on some paths. -/
structure MakesOn (paths : List Path) (before after : FileSystem) : Prop where
  keeps : KeepsDirectories before after
  sameFiles : SameFiles before after
  made : ∀ place, after.find? place = some .directory →
    before.find? place = some .directory ∨ ∃ p ∈ paths, after.LiesOn p place

theorem LiesOn.keeps {fs gs : FileSystem} {p : Path} {place : Location} (hp : fs.LiesOn p place)
    (h : KeepsDirectories fs gs) : gs.LiesOn p place := by
  obtain ⟨names, hnames, hresolve⟩ := hp
  exact ⟨names, hnames, resolve_directory h hresolve⟩

theorem LiesOn.extend {fs : FileSystem} {root : Text} {names : List Text} {place : Location}
    (h : fs.LiesOn ⟨root, names⟩ place) (more : List Text) :
    fs.LiesOn ⟨root, names ++ more⟩ place := by
  obtain ⟨front, hfront, hresolve⟩ := h
  exact ⟨front, hfront.trans (List.prefix_append names more), hresolve⟩

namespace MakesOn

variable {paths : List Path} {fs gs hs : FileSystem}

theorem refl (fs : FileSystem) : MakesOn paths fs fs where
  keeps := .refl fs
  sameFiles := .refl fs
  made := fun _ h => .inl h

theorem trans (h₁ : MakesOn paths fs gs) (h₂ : MakesOn paths gs hs) : MakesOn paths fs hs where
  keeps := h₁.keeps.trans h₂.keeps
  sameFiles := h₁.sameFiles.trans h₂.sameFiles
  made := by
    intro place hplace
    rcases h₂.made place hplace with hgs | hnew
    · rcases h₁.made place hgs with hfs | ⟨p, hp, hlies⟩
      · exact .inl hfs
      · exact .inr ⟨p, hp, hlies.keeps h₂.keeps⟩
    · exact .inr hnew

theorem imp {others : List Path} (h : MakesOn paths fs gs)
    (himp : ∀ p ∈ paths, ∀ place, gs.LiesOn p place → ∃ q ∈ others, gs.LiesOn q place) :
    MakesOn others fs gs where
  keeps := h.keeps
  sameFiles := h.sameFiles
  made := by
    intro place hplace
    rcases h.made place hplace with hfs | ⟨p, hp, hlies⟩
    · exact .inl hfs
    · exact .inr (himp p hp place hlies)

end MakesOn

/-! ## Making directories -/

theorem makesOn_createDirectory {fs made : FileSystem} {p : Path}
    (h : fs.createDirectory p = .ok made) : MakesOn [p] fs made where
  keeps := (createDirectory_eq_ok h).1
  sameFiles := sameFiles_createDirectory h
  made := by
    intro l hl
    obtain ⟨hkeeps, place, hresolve⟩ := createDirectory_eq_ok h
    unfold createDirectory at h
    split at h
    · next there hmissing =>
        cases h
        have hnone : (none : Option Node) ≠ some .directory := by
          intro heq
          cases heq
        rcases resolve_eq_ok hmissing with hfound | ⟨hthere, -⟩
        · cases hfound
        · rw [find?_set hthere] at hl
          split at hl
          · next heq =>
              refine .inr ⟨p, List.mem_singleton_self p, p.components, List.prefix_rfl, ?_⟩
              have hnew := resolve_keepsDirectories hkeeps hmissing hnone
              rw [find?_set_self hthere] at hnew
              rw [heq]
              exact hnew
          · exact .inl hl
    · cases h
    · cases h

theorem makesOn_makeDirectory (fs : FileSystem) (p : Path) (mayExist : Bool) :
    MakesOn [p] fs (fs.makeDirectory p mayExist).1 := by
  unfold makeDirectory
  split
  · next hmade => exact makesOn_createDirectory hmade
  · exact .refl fs
  · rw [settle_fst]
    exact .refl fs

theorem makesOn_makeDirectoriesUp (root : Text) (mayExist : Bool) (names : List Text)
    (fs : FileSystem) :
    MakesOn [⟨root, names.reverse⟩] fs (makeDirectoriesUp root mayExist names fs).1 := by
  induction names generalizing mayExist fs with
  | nil => exact makesOn_makeDirectory fs _ mayExist
  | cons name above ih =>
      -- What was made above the directory lies on the path to it.
      have habove : MakesOn [⟨root, (name :: above).reverse⟩] fs
          (makeDirectoriesUp root true above fs).1 := by
        refine (ih true fs).imp fun p hp place hlies => ?_
        rw [List.mem_singleton.mp hp] at hlies
        refine ⟨_, List.mem_singleton_self _, ?_⟩
        rw [List.reverse_cons]
        exact hlies.extend [name]
      unfold makeDirectoriesUp
      dsimp only
      split
      · next hmade => exact makesOn_createDirectory hmade
      · split
        · next hmade =>
            rw [hmade] at habove
            exact habove.trans (makesOn_makeDirectory _ _ mayExist)
        · exact habove
      · rw [settle_fst]
        exact .refl fs

theorem makesOn_makeDirectories (fs : FileSystem) (p : Path) (mayExist : Bool) :
    MakesOn [p] fs (fs.makeDirectories p mayExist).1 := by
  have h := makesOn_makeDirectoriesUp p.root mayExist p.components.reverse fs
  rwa [List.reverse_reverse] at h

/-! ## What is there already -/

def IsThere (fs : FileSystem) (p : Path) : Prop :=
  ∃ place node, fs.resolve p = .ok (place, some node)

theorem contains_eq_ok_true_iff {fs : FileSystem} {p : Path} :
    fs.contains p = .ok true ↔ fs.IsThere p := by
  unfold contains ask
  constructor
  · intro h
    split at h
    · next place found hresolve =>
        obtain ⟨node, rfl⟩ := Option.isSome_iff_exists.mp (Except.ok.inj h)
        exact ⟨place, node, hresolve⟩
    · cases h
    · cases h
  · rintro ⟨place, node, hresolve⟩
    rw [hresolve]
    rfl

/-- A directory that cannot be made for another reason than a missing one above it is settled at
once. -/
theorem makeDirectories_of_refused {fs : FileSystem} {p : Path} {error : FileError}
    (h : fs.createDirectory p = .error error) (hother : ∀ q, error ≠ .refused .noSuchFile q)
    (mayExist : Bool) : fs.makeDirectories p mayExist = fs.settle p mayExist error := by
  obtain ⟨root, components⟩ := p
  unfold makeDirectories
  dsimp only
  cases hnames : components.reverse with
  | nil =>
      rw [List.reverse_eq_nil_iff.mp hnames] at h ⊢
      rw [makeDirectoriesUp, makeDirectory, h]
      split
      · next heq => cases heq
      · next heq => exact absurd (Except.error.inj heq) (hother _)
      · next heq => rw [Except.error.inj heq]
  | cons name above =>
      have hpath : (name :: above).reverse = components := by rw [← hnames, List.reverse_reverse]
      rw [makeDirectoriesUp, hpath, h]
      split
      · next heq => cases heq
      · next heq => exact absurd (Except.error.inj heq) (hother _)
      · next heq => rw [Except.error.inj heq]

theorem makeDirectories_of_contains {fs : FileSystem} {p : Path} {error : FileError}
    (h : fs.contains p = .error error) (mayExist : Bool) :
    fs.makeDirectories p mayExist = (fs, .error error) := by
  unfold contains ask at h
  split at h
  · cases h
  · next q hresolve =>
      cases h
      have hcreate : fs.createDirectory p = .error (.refused .nameTooLong q) := by
        rw [createDirectory, hresolve]
      rw [makeDirectories_of_refused hcreate (fun _ => by rintro ⟨⟩) mayExist]
      cases mayExist with
      | false => rfl
      | true => simp only [settle, if_true, isDirectory, ask, hresolve]
  · cases h

end SchemaDocs.FileSystem
