import SchemaDocs.Proofs.FileSystem.MadeDirectories
/-!
# Trees of files

In a tree everything is in a directory, so below a place where nothing is there is nothing either.
A path without double dots leads straight down, and what is made above a directory that is missing
is not the directory itself.  So whether a directory may exist already does not matter while it is
made, unless it does.

* `IsTree.find?_append`: below a place where nothing is;
* `resolve_straight`, `find?_of_missing`: the place of a path without double dots;
* `makeDirectories_mayExist`: making a directory that is not there;
* `IsTree.makeDirectories`, `IsTree.openForWriting`: trees stay trees.
-/

namespace SchemaDocs.FileSystem

/-- Whether everything in a tree is in a directory, and the current directory is there. -/
structure IsTree (fs : FileSystem) : Prop where
  current : fs.find? fs.current = some .directory
  parent : ∀ place, fs.find? place ≠ none → fs.find? place.dropLast = some .directory

theorem exists_mem_of_nodeAt? {place : Location} {nodes : List (Location × Node)}
    (h : nodeAt? place nodes ≠ none) : ∃ e ∈ nodes, e.1 = place := by
  induction nodes with
  | nil => exact absurd rfl h
  | cons e rest ih =>
      rw [nodeAt?] at h
      split at h
      · next heq => exact ⟨e, List.mem_cons_self, heq⟩
      · obtain ⟨x, hx, heq⟩ := ih h
        exact ⟨x, List.mem_cons_of_mem e hx, heq⟩

theorem isTree_of_nodes {fs : FileSystem} (hcurrent : fs.find? fs.current = some .directory)
    (h : ∀ e ∈ fs.nodes, fs.find? e.1.dropLast = some .directory) : fs.IsTree where
  current := hcurrent
  parent := by
    intro place hplace
    cases place with
    | nil => rfl
    | cons name rest =>
        obtain ⟨e, he, heq⟩ := exists_mem_of_nodeAt? hplace
        rw [← heq]
        exact h e he

theorem IsTree.find?_append {fs : FileSystem} (h : fs.IsTree) {place : Location}
    (hnone : fs.find? place = none) (more : Location) : fs.find? (place ++ more) = none := by
  induction more using List.reverseRecOn with
  | nil => rwa [List.append_nil]
  | append_singleton front name ih =>
      by_contra hsome
      have hparent := h.parent _ hsome
      rw [← List.append_assoc, List.dropLast_concat, ih] at hparent
      cases hparent

/-! ## Paths that lead straight down -/

/-- The place of a path without double dots, whether or not something is there. -/
def straightPlace (fs : FileSystem) (p : Path) : Location :=
  fs.start p ++ p.components.map Name.listed

theorem child_ne_missing (fs : FileSystem) (here : Location) (name : Text) :
    fs.child here name ≠ .error .noSuchFile := by
  intro h
  unfold child at h
  split at h
  · cases h
  · split at h
    · cases h
    · cases h

theorem child_straight {fs : FileSystem} {here there : Location} {name : Text}
    {found : Option Node} (hname : name ≠ Path.up)
    (h : fs.child here name = .ok (there, found)) :
    there = here ++ [Name.listed name] ∧ found = fs.find? there := by
  rw [child, if_neg hname] at h
  split at h
  · cases h
  · cases h
    exact ⟨rfl, rfl⟩

theorem walk_straight {fs : FileSystem} {here there : Location} {names : List Text}
    (hup : Path.up ∉ names) (h : fs.walk here names = .ok there) :
    there = here ++ names.map Name.listed := by
  induction names generalizing here with
  | nil =>
      cases h
      exact (List.append_nil _).symm
  | cons name rest ih =>
      rw [List.mem_cons, not_or] at hup
      obtain ⟨⟨next, found⟩, hchild, h⟩ := Results.bind_eq_ok.mp h
      obtain ⟨rfl, -⟩ := child_straight (Ne.symm hup.1) hchild
      cases found with
      | none => cases h
      | some node =>
          cases node with
          | file content => cases h
          | directory => rw [ih hup.2 h, List.map_cons, List.append_assoc, List.singleton_append]

theorem walk_missing {fs : FileSystem} {here : Location} {names : List Text}
    (hup : Path.up ∉ names) (h : fs.walk here names = .error .noSuchFile) :
    ∃ front, front <+: names ∧ fs.find? (here ++ front.map Name.listed) = none := by
  induction names generalizing here with
  | nil => cases h
  | cons name rest ih =>
      rw [List.mem_cons, not_or] at hup
      rcases Results.bind_eq_error.mp h with hchild | ⟨⟨next, found⟩, hchild, h⟩
      · exact absurd hchild (child_ne_missing fs here name)
      · obtain ⟨rfl, hfound⟩ := child_straight (Ne.symm hup.1) hchild
        cases found with
        | none => exact ⟨[name], ⟨rest, rfl⟩, hfound.symm⟩
        | some node =>
            cases node with
            | file content => cases h
            | directory =>
                obtain ⟨front, hfront, hnone⟩ := ih hup.2 h
                refine ⟨name :: front, (List.prefix_cons_inj name).mpr hfront, ?_⟩
                rwa [List.append_assoc] at hnone

theorem resolve_straight {fs : FileSystem} {p : Path} {place : Location} {found : Option Node}
    (hup : Path.up ∉ p.components) (h : fs.resolve p = .ok (place, found)) :
    place = fs.straightPlace p ∧ (p.components ≠ [] → found = fs.find? place) := by
  have hlocate := locate_of_resolve h
  unfold locate at hlocate
  split at hlocate
  · cases hlocate
  · split at hlocate
    · next hlast =>
        cases hlocate
        have hnil := List.getLast?_eq_none_iff.mp hlast
        refine ⟨?_, fun hne => absurd hnil hne⟩
        rw [straightPlace, hnil, List.map_nil, List.append_nil]
    · next name hlast =>
        obtain ⟨front, hcomponents⟩ := List.getLast?_eq_some_iff.mp hlast
        rw [hcomponents, List.mem_append, not_or, List.mem_singleton] at hup
        obtain ⟨here, hwalk, hchild⟩ := Results.bind_eq_ok.mp hlocate
        rw [hcomponents, List.dropLast_concat] at hwalk
        obtain ⟨hplace, hfound⟩ := child_straight (Ne.symm hup.2) hchild
        refine ⟨?_, fun _ => hfound⟩
        rw [hplace, walk_straight hup.1 hwalk, straightPlace, hcomponents, List.map_append,
          List.append_assoc]
        rfl

theorem locate_of_resolve_error {fs : FileSystem} {p q : Path} {cause : FileCause}
    (h : fs.resolve p = .error (.refused cause q)) : fs.locate p = .error cause := by
  unfold resolve at h
  split at h
  · cases h
  · split at h
    · cases h
    · cases hlocate : fs.locate p with
      | ok result =>
          rw [hlocate] at h
          cases h
      | error other =>
          rw [hlocate] at h
          cases h
          rfl

theorem find?_of_missing {fs : FileSystem} (htree : fs.IsTree) {p q : Path}
    (hup : Path.up ∉ p.components) (h : fs.resolve p = .error (.refused .noSuchFile q)) :
    fs.find? (fs.straightPlace p) = none := by
  have hlocate := locate_of_resolve_error h
  unfold locate at hlocate
  split at hlocate
  · cases hlocate
  · split at hlocate
    · cases hlocate
    · next name hlast =>
        obtain ⟨front, hcomponents⟩ := List.getLast?_eq_some_iff.mp hlast
        rw [hcomponents, List.mem_append, not_or, List.mem_singleton] at hup
        rw [hcomponents, List.dropLast_concat] at hlocate
        rcases Results.bind_eq_error.mp hlocate with hwalk | ⟨here, -, hchild⟩
        · obtain ⟨found, ⟨rest, rfl⟩, hnone⟩ := walk_missing hup.1 hwalk
          have hbelow := htree.find?_append hnone ((rest ++ [name]).map Name.listed)
          rw [straightPlace, hcomponents, List.append_assoc found, List.map_append,
            ← List.append_assoc]
          exact hbelow
        · exact absurd hchild (child_ne_missing fs here name)

/-! ## Making a directory that is not there -/

section NotThere

variable {fs : FileSystem} {p : Path}

theorem settle_mayExist (hnot : ¬ fs.IsDirectory p) {error : FileError}
    (h : fs.createDirectory p = .error error) :
    fs.settle p true error = fs.settle p false error := by
  cases error with
  | unencodable fault => rfl
  | nullInPath => rfl
  | refused cause q =>
      simp only [settle, if_true, Bool.false_eq_true, if_false]
      cases hdirectory : fs.isDirectory p with
      | ok found =>
          cases found with
          | true => exact absurd (isDirectory_eq_ok_true.mp hdirectory) hnot
          | false => rfl
      | error raised =>
          -- The question is left open by the same name that keeps the directory from being made.
          unfold isDirectory ask at hdirectory
          split at hdirectory
          · cases hdirectory
          · next hresolve =>
              rw [createDirectory, hresolve] at h
              cases h
              cases hdirectory
              rfl
          · cases hdirectory

theorem makeDirectory_mayExist (hnot : ¬ fs.IsDirectory p) :
    fs.makeDirectory p true = fs.makeDirectory p false := by
  unfold makeDirectory
  split
  · rfl
  · rfl
  · next hcreate => exact settle_mayExist hnot hcreate

theorem not_isDirectory_of_made (htree : fs.IsTree) {root name : Text} {above : List Text}
    (hup : Path.up ∉ (name :: above).reverse) {q : Path}
    (hmissing : fs.createDirectory ⟨root, (name :: above).reverse⟩ =
      .error (.refused .noSuchFile q)) {made : FileSystem}
    (hmade : makeDirectoriesUp root true above fs = (made, .ok ())) :
    ¬ made.IsDirectory ⟨root, (name :: above).reverse⟩ := by
  have hmakes : MakesOn [⟨root, above.reverse⟩] fs made := by
    have h := makesOn_makeDirectoriesUp root true above fs
    rwa [hmade] at h
  have hstart : ∀ names, made.start ⟨root, names⟩ = fs.start ⟨root, names⟩ := by
    intro names
    rw [start, start, hmakes.keeps.current]
  have hnone : fs.find? (fs.straightPlace ⟨root, (name :: above).reverse⟩) = none := by
    have hresolve : fs.resolve ⟨root, (name :: above).reverse⟩ =
        .error (.refused .noSuchFile q) := by
      unfold createDirectory at hmissing
      split at hmissing
      · cases hmissing
      · cases hmissing
      · next hresolve => rw [hresolve, Except.error.inj hmissing]
    exact find?_of_missing htree hup hresolve
  rintro ⟨place, hresolve⟩
  obtain ⟨hplace, hfound⟩ := resolve_straight hup hresolve
  rw [straightPlace, hstart] at hplace
  rcases hmakes.made place (hfound (by simp)).symm with hbefore | ⟨p, hp, names, hnames, hlies⟩
  · rw [straightPlace, ← hplace, hbefore] at hnone
    cases hnone
  · -- A place above the directory is shorter than that of the directory.
    rw [List.mem_singleton.mp hp] at hnames hlies
    have hupAbove : Path.up ∉ names := by
      intro hmem
      rw [List.reverse_cons] at hup
      exact hup (List.mem_append_left _ (hnames.subset hmem))
    have hsame := (resolve_straight (p := ⟨root, names⟩) hupAbove hlies).1
    rw [straightPlace, hstart] at hsame
    have hlength := congrArg List.length (hsame.symm.trans hplace)
    have hshort := hnames.length_le
    simp only [start, List.length_append, List.length_map, List.length_reverse,
      List.length_cons] at hlength hshort
    omega

/-- A directory that is not there is made alike whether or not it may exist already. -/
theorem makeDirectories_mayExist (htree : fs.IsTree) (hup : Path.up ∉ p.components)
    (hnot : ¬ fs.IsDirectory p) : fs.makeDirectories p true = fs.makeDirectories p false := by
  obtain ⟨root, components⟩ := p
  unfold makeDirectories
  dsimp only at hup ⊢
  cases hnames : components.reverse with
  | nil =>
      rw [List.reverse_eq_nil_iff.mp hnames] at hnot
      exact makeDirectory_mayExist hnot
  | cons name above =>
      have hpath : (name :: above).reverse = components := by rw [← hnames, List.reverse_reverse]
      rw [← hpath] at hup hnot
      unfold makeDirectoriesUp
      dsimp only
      split
      · rfl
      · next hmissing =>
          split
          · next hmade =>
              exact makeDirectory_mayExist (not_isDirectory_of_made htree hup hmissing hmade)
          · rfl
      · next hcreate => exact settle_mayExist hnot hcreate

end NotThere

/-! ## Trees stay trees -/

namespace IsTree

variable {fs : FileSystem}

/-- A tree stays one if something is put into a directory, but not in the place of another
directory. -/
theorem set (h : fs.IsTree) {here : Location} {name : Text}
    (hhere : fs.find? here = some .directory) {node : Node}
    (hfound : fs.find? (here ++ [name]) = some .directory → node = .directory) :
    (fs.set (here ++ [name]) node).IsTree := by
  have hplace : here ++ [name] ≠ [] := List.append_ne_nil_of_right_ne_nil here (by simp)
  have hdirectory : ∀ l, fs.find? l = some .directory →
      (fs.set (here ++ [name]) node).find? l = some .directory := by
    intro l hl
    rw [find?_set hplace]
    split
    · next heq => rw [hfound (heq ▸ hl)]
    · exact hl
  refine ⟨hdirectory _ h.current, fun l hl => hdirectory _ ?_⟩
  rw [find?_set hplace] at hl
  split at hl
  · next heq => rw [heq, List.dropLast_concat, hhere]
  · exact h.parent l hl

theorem find?_walk (h : fs.IsTree) {here there : Location} {names : List Text}
    (hhere : fs.find? here = some .directory) (hwalk : fs.walk here names = .ok there) :
    fs.find? there = some .directory := by
  induction names generalizing here with
  | nil =>
      cases hwalk
      exact hhere
  | cons name rest ih =>
      obtain ⟨⟨next, found⟩, hchild, hwalk⟩ := Results.bind_eq_ok.mp hwalk
      cases found with
      | none => cases hwalk
      | some node =>
          cases node with
          | file content => cases hwalk
          | directory =>
              refine ih ?_ hwalk
              unfold child at hchild
              split at hchild
              · cases hchild
                exact h.parent here (by rw [hhere]; simp)
              · split at hchild
                · cases hchild
                · obtain ⟨rfl, hnext⟩ := Prod.mk.inj (Except.ok.inj hchild)
                  exact hnext

theorem exists_parent (h : fs.IsTree) {p : Path} {place : Location} {found : Option Node}
    (hresolve : fs.resolve p = .ok (place, found)) (hfound : found ≠ some .directory) :
    ∃ here name, place = here ++ [name] ∧ fs.find? here = some .directory := by
  obtain ⟨name, here, -, hwalk, hchild⟩ := resolve_of_ne_directory hresolve hfound
  have hstart : fs.find? (fs.start p) = some .directory := by
    unfold start
    split
    · exact h.current
    · rfl
  exact ⟨here, _, (child_of_ne_directory hchild hfound).1, h.find?_walk hstart hwalk⟩

theorem createDirectory (h : fs.IsTree) {p : Path} {made : FileSystem}
    (hmade : fs.createDirectory p = .ok made) : made.IsTree := by
  unfold FileSystem.createDirectory at hmade
  split at hmade
  · next hresolve =>
      cases hmade
      obtain ⟨here, name, rfl, hhere⟩ := h.exists_parent hresolve (by simp)
      exact h.set hhere fun _ => rfl
  · cases hmade
  · cases hmade

theorem makeDirectory (h : fs.IsTree) (p : Path) (mayExist : Bool) :
    (fs.makeDirectory p mayExist).1.IsTree := by
  unfold FileSystem.makeDirectory
  split
  · next hmade => exact h.createDirectory hmade
  · exact h
  · rwa [settle_fst]

theorem makeDirectoriesUp (h : fs.IsTree) (root : Text) (mayExist : Bool) (names : List Text) :
    (FileSystem.makeDirectoriesUp root mayExist names fs).1.IsTree := by
  induction names generalizing mayExist with
  | nil => exact h.makeDirectory _ mayExist
  | cons name above ih =>
      have habove := ih true
      unfold FileSystem.makeDirectoriesUp
      dsimp only
      split
      · next hmade => exact h.createDirectory hmade
      · split
        · next hmade =>
            rw [hmade] at habove
            exact habove.makeDirectory _ mayExist
        · exact habove
      · rwa [settle_fst]

theorem makeDirectories (h : fs.IsTree) (p : Path) (mayExist : Bool) :
    (fs.makeDirectories p mayExist).1.IsTree :=
  h.makeDirectoriesUp p.root mayExist p.components.reverse

theorem openForWriting (h : fs.IsTree) {p : Path} {opened : FileSystem} {place : Location}
    (hopen : fs.openForWriting p = .ok (opened, place)) (bytes : Bytes) :
    (fs.set place (.file bytes)).IsTree := by
  obtain ⟨-, hdirectory, hresolve, -⟩ := openForWriting_eq_ok hopen
  obtain ⟨here, name, rfl, hhere⟩ := h.exists_parent hresolve hdirectory
  exact h.set hhere fun hthere => absurd hthere hdirectory

end IsTree

end SchemaDocs.FileSystem
