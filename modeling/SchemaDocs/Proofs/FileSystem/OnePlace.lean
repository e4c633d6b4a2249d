import SchemaDocs.Proofs.Agreement
import SchemaDocs.Proofs.FileSystem.Places
/-!
# Trees that differ at one place

Two trees may differ at one place in what the file there holds.  Paths lead to the same places in
both of them, since a file is no way to anything.  So everything that is asked, made or opened comes
out alike in both, and leaves trees that differ at that place only.  It is the content of the file
alone that tells the trees apart, for whoever reads it.

* `DiffersOnlyAt`: the relation between the trees, kept when the same node is put into both;
* `DiffersOnlyAt.resolve`, `DiffersOnlyAt.read`: where paths lead, and what is read elsewhere;
* `DiffersOnlyAt.makeDirectories`, `DiffersOnlyAt.openForWriting`: what is made in both trees.
-/

namespace SchemaDocs.FileSystem

open Results (Agree)

inductive SameKind : Option Node → Option Node → Prop where
  | same (found : Option Node) : SameKind found found
  | files (content other : Bytes) : SameKind (some (.file content)) (some (.file other))

/-- Whether two trees are the same but for the content of a file at one place. -/
structure DiffersOnlyAt (place : Location) (fs gs : FileSystem) : Prop where
  current : gs.current = fs.current
  others : ∀ l, l ≠ place → gs.find? l = fs.find? l
  sameKind : SameKind (fs.find? place) (gs.find? place)

/-- Whether the same place was found twice, with the same there unless it is a given one. -/
structure FoundAlike (place : Location) (first second : Location × Option Node) : Prop where
  location : second.1 = first.1
  sameKind : SameKind first.2 second.2
  others : first.1 ≠ place → second.2 = first.2

structure MadeAlike (place : Location) (first second : FileSystem × Except FileError Unit) :
    Prop where
  files : DiffersOnlyAt place first.1 second.1
  outcome : second.2 = first.2

namespace DiffersOnlyAt

variable {place : Location} {fs gs : FileSystem}

theorem find? (h : DiffersOnlyAt place fs gs) (l : Location) :
    SameKind (fs.find? l) (gs.find? l) := by
  by_cases hl : l = place
  · rw [hl]
    exact h.sameKind
  · rw [h.others l hl]
    exact .same _

theorem set (h : DiffersOnlyAt place fs gs) {l : Location} (hl : l ≠ []) (node : Node) :
    DiffersOnlyAt place (fs.set l node) (gs.set l node) where
  current := h.current
  others := by
    intro other hother
    rw [find?_set hl, find?_set hl, h.others other hother]
  sameKind := by
    rw [find?_set hl, find?_set hl]
    split
    · exact .same _
    · exact h.sameKind

/-! ## Where paths lead -/

section Paths

variable (h : DiffersOnlyAt place fs gs)
include h

theorem child (here : Location) (name : Text) :
    Agree (FoundAlike place) (fs.child here name) (gs.child here name) := by
  unfold FileSystem.child
  split
  · exact .ok ⟨rfl, .same _, fun _ => rfl⟩
  · split
    · exact .error _
    · exact .ok ⟨rfl, h.find? _, h.others _⟩

theorem walk (here : Location) (names : List Text) : gs.walk here names = fs.walk here names := by
  induction names generalizing here with
  | nil => rfl
  | cons name rest ih =>
      refine ((h.child here name).bind (S := Eq) fun first second hfound => ?_).eq.symm
      obtain ⟨there, found⟩ := first
      obtain ⟨there', found'⟩ := second
      obtain ⟨rfl, hkind, -⟩ := hfound
      cases hkind with
      | same found =>
          cases found with
          | none => exact .error _
          | some node =>
              cases node with
              | file content => exact .error _
              | directory => exact Results.agree_of_eq (ih there').symm
      | files content other => exact .error _

theorem locate (p : Path) : Agree (FoundAlike place) (fs.locate p) (gs.locate p) := by
  have hstart : gs.start p = fs.start p := by rw [start, start, h.current]
  unfold FileSystem.locate
  rw [hstart]
  split
  · exact .error _
  · split
    · exact .ok ⟨rfl, .same _, fun _ => rfl⟩
    · rw [h.walk]
      refine (Results.agree_of_eq rfl).bind ?_
      rintro here _ rfl
      exact h.child here _

theorem resolve (p : Path) : Agree (FoundAlike place) (fs.resolve p) (gs.resolve p) := by
  unfold FileSystem.resolve
  split
  · exact .error _
  · split
    · exact .error _
    · exact (h.locate p).mapError _

/-- How a path can lead to something in both trees: it fails in both, it finds the same in both, or
it leads to the place where they differ. -/
theorem resolve_cases (p : Path) :
    (∃ error, fs.resolve p = .error error ∧ gs.resolve p = .error error) ∨
      (∃ l found, fs.resolve p = .ok (l, found) ∧ gs.resolve p = .ok (l, found)) ∨
      ∃ content other, fs.resolve p = .ok (place, some (.file content)) ∧
        gs.resolve p = .ok (place, some (.file other)) := by
  have hresolve := h.resolve p
  generalize fs.resolve p = first at hresolve ⊢
  generalize gs.resolve p = second at hresolve ⊢
  cases hresolve with
  | error error => exact .inl ⟨error, rfl, rfl⟩
  | @ok first second hfound =>
      obtain ⟨l, found⟩ := first
      obtain ⟨l', found'⟩ := second
      obtain ⟨rfl, hkind, hothers⟩ := hfound
      by_cases hl : l' = place
      · obtain rfl := hl
        cases hkind with
        | same found => exact .inr (.inl ⟨_, found, rfl, rfl⟩)
        | files content other => exact .inr (.inr ⟨content, other, rfl, rfl⟩)
      · obtain rfl := hothers hl
        exact .inr (.inl ⟨l', found', rfl, rfl⟩)

/-! ## What is asked and read -/

theorem ask {question : Option Node → Bool}
    (hquestion : ∀ content other,
      question (some (.file content)) = question (some (.file other))) (p : Path) :
    gs.ask p question = fs.ask p question := by
  unfold FileSystem.ask
  rcases h.resolve_cases p with
    ⟨error, hfs, hgs⟩ | ⟨l, found, hfs, hgs⟩ | ⟨content, other, hfs, hgs⟩
  · rw [hfs, hgs]
  · rw [hfs, hgs]
  · rw [hfs, hgs]
    exact congrArg Except.ok (hquestion other content)

theorem isFile (p : Path) : gs.isFile p = fs.isFile p :=
  h.ask (fun _ _ => rfl) p

theorem isDirectory (p : Path) : gs.isDirectory p = fs.isDirectory p :=
  h.ask (fun _ _ => rfl) p

theorem contains (p : Path) : gs.contains p = fs.contains p :=
  h.ask (fun _ _ => rfl) p

theorem read {p : Path} (hp : fs.placeOf? p ≠ some place) : gs.read p = fs.read p := by
  unfold FileSystem.read
  rcases h.resolve_cases p with
    ⟨error, hfs, hgs⟩ | ⟨l, found, hfs, hgs⟩ | ⟨content, other, hfs, hgs⟩
  · rw [hfs, hgs]
  · rw [hfs, hgs]
  · exact absurd (placeOf?_of_resolve hfs) hp

/-! ## What is made -/

theorem createDirectory (p : Path) :
    Agree (DiffersOnlyAt place) (fs.createDirectory p) (gs.createDirectory p) := by
  unfold FileSystem.createDirectory
  rcases h.resolve_cases p with
    ⟨error, hfs, hgs⟩ | ⟨l, found, hfs, hgs⟩ | ⟨content, other, hfs, hgs⟩
  · rw [hfs, hgs]
    exact .error error
  · rw [hfs, hgs]
    cases found with
    | none =>
        rcases resolve_eq_ok hfs with hdirectory | ⟨hl, -⟩
        · cases hdirectory
        · exact .ok (h.set hl .directory)
    | some node => exact .error _
  · rw [hfs, hgs]
    exact .error _

theorem settle (p : Path) (mayExist : Bool) (error : FileError) :
    MadeAlike place (fs.settle p mayExist error) (gs.settle p mayExist error) := by
  unfold FileSystem.settle
  rw [h.isDirectory p]
  split
  · split
    · split
      · exact ⟨h, rfl⟩
      · exact ⟨h, rfl⟩
      · exact ⟨h, rfl⟩
    · exact ⟨h, rfl⟩
  · exact ⟨h, rfl⟩

end Paths

theorem makeDirectory (h : DiffersOnlyAt place fs gs) (p : Path) (mayExist : Bool) :
    MadeAlike place (fs.makeDirectory p mayExist) (gs.makeDirectory p mayExist) := by
  have hcreate := h.createDirectory p
  unfold FileSystem.makeDirectory
  generalize fs.createDirectory p = first at hcreate ⊢
  generalize gs.createDirectory p = second at hcreate ⊢
  cases hcreate with
  | ok hmade => exact ⟨hmade, rfl⟩
  | error error =>
      cases error with
      | refused cause q =>
          cases cause with
          | noSuchFile => exact ⟨h, rfl⟩
          | _ => exact h.settle p mayExist _
      | _ => exact h.settle p mayExist _

theorem makeDirectoriesUp (h : DiffersOnlyAt place fs gs) (root : Text) (mayExist : Bool)
    (names : List Text) :
    MadeAlike place (FileSystem.makeDirectoriesUp root mayExist names fs)
      (FileSystem.makeDirectoriesUp root mayExist names gs) := by
  induction names generalizing mayExist with
  | nil => exact h.makeDirectory _ mayExist
  | cons name above ih =>
      have hcreate := h.createDirectory ⟨root, (name :: above).reverse⟩
      unfold FileSystem.makeDirectoriesUp
      dsimp only
      generalize fs.createDirectory ⟨root, (name :: above).reverse⟩ = first at hcreate ⊢
      generalize gs.createDirectory ⟨root, (name :: above).reverse⟩ = second at hcreate ⊢
      cases hcreate with
      | ok hmade => exact ⟨hmade, rfl⟩
      | error error =>
          cases error with
          | refused cause q =>
              cases cause with
              | noSuchFile =>
                  -- What was made above the directory comes before the second try.
                  have habove := ih true
                  generalize FileSystem.makeDirectoriesUp root true above fs = made at habove ⊢
                  generalize FileSystem.makeDirectoriesUp root true above gs = made' at habove ⊢
                  obtain ⟨files, _⟩ := made
                  obtain ⟨files', outcome⟩ := made'
                  obtain ⟨hfiles, rfl⟩ := habove
                  cases outcome with
                  | ok _ => exact hfiles.makeDirectory _ mayExist
                  | error error => exact ⟨hfiles, rfl⟩
              | _ => exact h.settle _ mayExist _
          | _ => exact h.settle _ mayExist _

theorem makeDirectories (h : DiffersOnlyAt place fs gs) (p : Path) (mayExist : Bool) :
    MadeAlike place (fs.makeDirectories p mayExist) (gs.makeDirectories p mayExist) :=
  h.makeDirectoriesUp p.root mayExist p.components.reverse

/-! ## What is opened -/

structure OpenedAlike (place : Location) (first second : FileSystem × Location) : Prop where
  files : DiffersOnlyAt place first.1 second.1
  location : second.2 = first.2

theorem openForWriting (h : DiffersOnlyAt place fs gs) (p : Path) :
    Agree (OpenedAlike place) (fs.openForWriting p) (gs.openForWriting p) := by
  unfold FileSystem.openForWriting
  rcases h.resolve_cases p with
    ⟨error, hfs, hgs⟩ | ⟨l, found, hfs, hgs⟩ | ⟨content, other, hfs, hgs⟩
  · rw [hfs, hgs]
    exact .error error
  · rw [hfs, hgs]
    rcases resolve_eq_ok hfs with rfl | ⟨hl, -⟩
    · exact .error _
    · cases found with
      | none => exact .ok ⟨h.set hl _, rfl⟩
      | some node =>
          cases node with
          | file content => exact .ok ⟨h.set hl _, rfl⟩
          | directory => exact .error _
  · rw [hfs, hgs]
    rcases resolve_eq_ok hfs with hdirectory | ⟨hl, -⟩
    · cases hdirectory
    · exact .ok ⟨h.set hl _, rfl⟩

end DiffersOnlyAt

end SchemaDocs.FileSystem
