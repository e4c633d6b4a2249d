import SchemaDocs.Proofs.FileSystem.Directories
/-!
# Several files put one after the other

Where the files of several targets go is settled before the first one is written: writing a file
makes no directory and takes none away.  Putting the same files once more changes nothing, also if
two of them have the same place.

* `Puts.set`, `Puts.of_set`: a target has its place before and after another one is written;
* `setFiles_setFiles`: files that were put are there.
-/

namespace SchemaDocs.FileSystem

/-- The tree with files put at places, one after the other. -/
def setFiles (fs : FileSystem) (puts : List (Location × Bytes)) : FileSystem :=
  puts.foldl (fun fs e => fs.set e.1 (.file e.2)) fs

/-- Whether writing a text to a path puts some bytes at a place. -/
structure Puts (fs : FileSystem) (target : Path × Text) (e : Location × Bytes) : Prop where
  place : fs.resolve target.1 = .ok (e.1, fs.find? e.1)
  free : fs.find? e.1 ≠ some .directory
  bytes : Utf8.encode target.2 = .ok e.2

/-! ## Putting one file -/

theorem ne_nil_of_free {fs : FileSystem} {place : Location}
    (h : fs.find? place ≠ some .directory) : place ≠ [] := by
  rintro rfl
  exact h rfl

theorem free_set_iff {fs : FileSystem} {place : Location} (hplace : fs.find? place ≠ some .directory)
    (bytes : Bytes) (l : Location) :
    (fs.set place (.file bytes)).find? l ≠ some .directory ↔ fs.find? l ≠ some .directory := by
  rw [find?_set (ne_nil_of_free hplace)]
  split
  · next heq =>
      rw [heq]
      exact iff_of_true nofun hplace
  · exact Iff.rfl

theorem keepsDirectories_of_set {fs : FileSystem} {place : Location}
    (hplace : fs.find? place ≠ some .directory) (bytes : Bytes) :
    KeepsDirectories (fs.set place (.file bytes)) fs where
  current := rfl
  directory := fun l => not_imp_not.mp (free_set_iff hplace bytes l).mpr

theorem Puts.set {fs : FileSystem} {target : Path × Text} {e : Location × Bytes}
    (h : fs.Puts target e) {place : Location} (hplace : fs.find? place ≠ some .directory)
    (bytes : Bytes) : (fs.set place (.file bytes)).Puts target e where
  place := resolve_keepsDirectories (keepsDirectories_set hplace _) h.place h.free
  free := (free_set_iff hplace bytes e.1).mpr h.free
  bytes := h.bytes

theorem Puts.of_set {fs : FileSystem} {target : Path × Text} {e : Location × Bytes}
    {place : Location} (hplace : fs.find? place ≠ some .directory) {bytes : Bytes}
    (h : (fs.set place (.file bytes)).Puts target e) : fs.Puts target e where
  place := resolve_keepsDirectories (keepsDirectories_of_set hplace bytes) h.place h.free
  free := (free_set_iff hplace bytes e.1).mp h.free
  bytes := h.bytes

theorem puts_iff_openForWriting {fs : FileSystem} {target : Path × Text} {e : Location × Bytes} :
    fs.Puts target e ↔
      (∃ opened, fs.openForWriting target.1 = .ok (opened, e.1)) ∧
        Utf8.encode target.2 = .ok e.2 := by
  constructor
  · intro h
    refine ⟨?_, h.bytes⟩
    cases hopen : fs.openForWriting target.1 with
    | error error => exact absurd (openForWriting_eq_error hopen h.place) h.free
    | ok result =>
        obtain ⟨-, -, hresolve, -⟩ := openForWriting_eq_ok hopen
        rw [h.place] at hresolve
        obtain ⟨hplace, -⟩ := Prod.mk.inj (Except.ok.inj hresolve)
        exact ⟨result.1, by rw [hplace]⟩
  · rintro ⟨⟨opened, hopen⟩, hbytes⟩
    obtain ⟨-, hfree, hresolve, -⟩ := openForWriting_eq_ok hopen
    exact ⟨hresolve, hfree, hbytes⟩

/-! ## Putting several files -/

theorem free_setFiles_iff {fs : FileSystem} {puts : List (Location × Bytes)}
    (hputs : ∀ e ∈ puts, fs.find? e.1 ≠ some .directory) (l : Location) :
    (fs.setFiles puts).find? l ≠ some .directory ↔ fs.find? l ≠ some .directory := by
  induction puts generalizing fs with
  | nil => exact Iff.rfl
  | cons e rest ih =>
      obtain ⟨he, hrest⟩ := List.forall_mem_cons.mp hputs
      have hset := free_set_iff he e.2
      exact (ih fun x hx => (hset x.1).mpr (hrest x hx)).trans (hset l)

theorem current_setFiles (fs : FileSystem) (puts : List (Location × Bytes)) :
    (fs.setFiles puts).current = fs.current := by
  induction puts generalizing fs with
  | nil => rfl
  | cons e rest ih => exact ih (fs.set e.1 (.file e.2))

theorem keepsDirectories_setFiles {fs : FileSystem} {puts : List (Location × Bytes)}
    (hputs : ∀ e ∈ puts, fs.find? e.1 ≠ some .directory) :
    KeepsDirectories fs (fs.setFiles puts) where
  current := current_setFiles fs puts
  directory := fun l => not_imp_not.mp (free_setFiles_iff hputs l).mp

theorem Puts.setFiles {fs : FileSystem} {target : Path × Text} {e : Location × Bytes}
    (h : fs.Puts target e) {puts : List (Location × Bytes)}
    (hputs : ∀ e ∈ puts, fs.find? e.1 ≠ some .directory) : (fs.setFiles puts).Puts target e where
  place := resolve_keepsDirectories (keepsDirectories_setFiles hputs) h.place h.free
  free := (free_setFiles_iff hputs e.1).mpr h.free
  bytes := h.bytes

theorem find?_setFiles_of_notMem {fs : FileSystem} {puts : List (Location × Bytes)}
    (hputs : ∀ e ∈ puts, e.1 ≠ []) {l : Location} (hl : l ∉ puts.map Prod.fst) :
    (fs.setFiles puts).find? l = fs.find? l := by
  induction puts generalizing fs with
  | nil => rfl
  | cons e rest ih =>
      obtain ⟨he, hrest⟩ := List.forall_mem_cons.mp hputs
      rw [List.map_cons, List.mem_cons, not_or] at hl
      calc (fs.setFiles (e :: rest)).find? l
          = (fs.set e.1 (.file e.2)).find? l := ih hrest hl.2
        _ = fs.find? l := by rw [find?_set he, if_neg hl.1]

theorem isSome_find?_set {fs : FileSystem} {place l : Location} (hplace : place ≠ [])
    (h : (fs.find? l).isSome) (node : Node) : ((fs.set place node).find? l).isSome := by
  rw [find?_set hplace]
  split
  · rfl
  · exact h

theorem isSome_find?_setFiles {fs : FileSystem} {puts : List (Location × Bytes)}
    (hputs : ∀ e ∈ puts, e.1 ≠ []) {l : Location} (h : (fs.find? l).isSome) :
    ((fs.setFiles puts).find? l).isSome := by
  induction puts generalizing fs with
  | nil => exact h
  | cons e rest ih =>
      obtain ⟨he, hrest⟩ := List.forall_mem_cons.mp hputs
      exact ih hrest (isSome_find?_set he h _)

/-! ## Putting files twice -/

theorem setNode_of_nodeAt? {place : Location} {node : Node} {nodes : List (Location × Node)}
    (h : nodeAt? place nodes = some node) : setNode place node nodes = nodes := by
  induction nodes with
  | nil => cases h
  | cons e rest ih =>
      rw [nodeAt?] at h
      rw [setNode]
      split at h
      · next heq =>
          cases h
          rw [if_pos heq, ← heq]
      · next hne => rw [if_neg hne, ih h]

theorem setNode_comm {p q : Location} (hne : p ≠ q) (a b : Node) {nodes : List (Location × Node)}
    (h : (nodeAt? p nodes).isSome) :
    setNode q b (setNode p a nodes) = setNode p a (setNode q b nodes) := by
  induction nodes with
  | nil => cases h
  | cons e rest ih =>
      rw [nodeAt?] at h
      by_cases hp : e.1 = p
      · have hq : e.1 ≠ q := fun hq => hne (hp.symm.trans hq)
        simp only [setNode, if_pos hp, if_neg hq, if_neg hne]
      · rw [if_neg hp] at h
        by_cases hq : e.1 = q
        · simp only [setNode, if_neg hp, if_pos hq, if_neg (Ne.symm hne)]
        · simp only [setNode, if_neg hp, if_neg hq, ih h]

theorem nodeAt?_of_ne_nil {place : Location} (hplace : place ≠ []) (fs : FileSystem) :
    nodeAt? place fs.nodes = fs.find? place := by
  rw [find?, if_neg]
  rwa [List.isEmpty_iff]

theorem set_of_find? {fs : FileSystem} {place : Location} (hplace : place ≠ []) {node : Node}
    (h : fs.find? place = some node) : fs.set place node = fs := by
  rw [set, setNode_of_nodeAt? ((nodeAt?_of_ne_nil hplace fs).trans h)]

theorem setFiles_of_overwritten {fs : FileSystem} {puts : List (Location × Bytes)}
    (hputs : ∀ e ∈ puts, e.1 ≠ []) {place : Location} (hplace : place ∈ puts.map Prod.fst)
    (hthere : (fs.find? place).isSome) (node : Node) :
    (fs.set place node).setFiles puts = fs.setFiles puts := by
  induction puts generalizing fs with
  | nil => exact absurd hplace List.not_mem_nil
  | cons e rest ih =>
      obtain ⟨he, hrest⟩ := List.forall_mem_cons.mp hputs
      change ((fs.set place node).set e.1 (.file e.2)).setFiles rest =
        (fs.set e.1 (.file e.2)).setFiles rest
      by_cases heq : place = e.1
      · rw [heq, set_set]
      · have hmem : place ∈ rest.map Prod.fst := (List.mem_cons.mp hplace).resolve_left heq
        have hne : place ≠ [] := by
          obtain ⟨x, hx, rfl⟩ := List.mem_map.mp hmem
          exact hrest x hx
        have hcomm : (fs.set place node).set e.1 (.file e.2) =
            (fs.set e.1 (.file e.2)).set place node := by
          rw [← nodeAt?_of_ne_nil hne] at hthere
          simp only [set, setNode_comm heq _ _ hthere]
        rw [hcomm]
        exact ih hrest hmem (isSome_find?_set he hthere _)

theorem setFiles_setFiles {puts : List (Location × Bytes)} (hputs : ∀ e ∈ puts, e.1 ≠ [])
    (fs : FileSystem) : (fs.setFiles puts).setFiles puts = fs.setFiles puts := by
  induction puts generalizing fs with
  | nil => rfl
  | cons e rest ih =>
      obtain ⟨he, hrest⟩ := List.forall_mem_cons.mp hputs
      have hfirst := find?_set_self he fs (.file e.2)
      have hagain := ih hrest (fs.set e.1 (.file e.2))
      change (((fs.set e.1 (.file e.2)).setFiles rest).set e.1 (.file e.2)).setFiles rest =
        (fs.set e.1 (.file e.2)).setFiles rest
      by_cases hlater : e.1 ∈ rest.map Prod.fst
      · rw [setFiles_of_overwritten hrest hlater, hagain]
        exact isSome_find?_setFiles hrest (by rw [hfirst]; rfl)
      · rw [set_of_find? he, hagain]
        rw [find?_setFiles_of_notMem hrest hlater, hfirst]

end SchemaDocs.FileSystem
