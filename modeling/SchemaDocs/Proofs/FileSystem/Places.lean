import SchemaDocs.Proofs.FileSystem.Puts
/-!
# Files at different places

Files that are put at different places are all there in the end, and every other place has the file
that it had before.

* `holds_setFiles`: a target holds its text after it was put with others;
* `sameFileAt_setFiles`: the places of no target keep their files.
-/

namespace SchemaDocs.FileSystem

def placeOf? (fs : FileSystem) (p : Path) : Option Location :=
  match fs.resolve p with
  | .ok (place, _) => some place
  | .error _ => none

def Apart (fs : FileSystem) (p q : Path) : Prop :=
  ∀ place ∈ fs.placeOf? p, place ∉ fs.placeOf? q

/-- Whether a place has the same file in two trees, or has no file in either. -/
def SameFileAt (before after : FileSystem) (place : Location) : Prop :=
  ∀ content, after.find? place = some (.file content) ↔ before.find? place = some (.file content)

def KeepsFileOf (before after : FileSystem) (p : Path) : Prop :=
  ∀ place ∈ after.placeOf? p, SameFileAt before after place

instance (fs : FileSystem) (p q : Path) : Decidable (fs.Apart p q) :=
  inferInstanceAs (Decidable (∀ place ∈ fs.placeOf? p, place ∉ fs.placeOf? q))

theorem placeOf?_of_resolve {fs : FileSystem} {p : Path} {place : Location} {found : Option Node}
    (h : fs.resolve p = .ok (place, found)) : fs.placeOf? p = some place := by
  rw [placeOf?, h]

theorem SameFileAt.of_eq {before after : FileSystem} {place : Location}
    (h : after.find? place = before.find? place) : SameFileAt before after place :=
  fun _ => by rw [h]

theorem SameFiles.trans_sameFileAt {fs gs hs : FileSystem} (h : SameFiles fs gs) {place : Location}
    (hplace : SameFileAt gs hs place) : SameFileAt fs hs place :=
  fun content => (hplace content).trans (h place content)

/-! ## Putting files at different places -/

theorem find?_setFiles_of_mem {fs : FileSystem} {puts : List (Location × Bytes)}
    (hputs : ∀ e ∈ puts, e.1 ≠ []) (hnodup : (puts.map Prod.fst).Nodup) {e : Location × Bytes}
    (he : e ∈ puts) : (fs.setFiles puts).find? e.1 = some (.file e.2) := by
  induction puts generalizing fs with
  | nil => exact absurd he List.not_mem_nil
  | cons first rest ih =>
      obtain ⟨hfirst, hrest⟩ := List.forall_mem_cons.mp hputs
      rw [List.map_cons, List.nodup_cons] at hnodup
      change ((fs.set first.1 (.file first.2)).setFiles rest).find? e.1 = some (.file e.2)
      rcases List.mem_cons.mp he with rfl | hmem
      · rw [find?_setFiles_of_notMem hrest hnodup.1, find?_set_self hfirst]
      · exact ih hrest hnodup.2 hmem

section Targets

variable {fs : FileSystem} {targets : List (Path × Text)} {puts : List (Location × Bytes)}
  (hputs : List.Forall₂ fs.Puts targets puts)
include hputs

theorem free_of_forall₂_puts : ∀ e ∈ puts, fs.find? e.1 ≠ some .directory := by
  intro e he
  obtain ⟨t, -, ht⟩ := Results.exists_of_mem_right hputs he
  exact ht.free

theorem ne_nil_of_forall₂_puts : ∀ e ∈ puts, e.1 ≠ [] :=
  fun e he => ne_nil_of_free (free_of_forall₂_puts hputs e he)

theorem forall₂_placeOf? :
    List.Forall₂ (fun t e => (fs.setFiles puts).placeOf? t.1 = some e.1) targets puts :=
  hputs.imp fun _ _ h => placeOf?_of_resolve (h.setFiles (free_of_forall₂_puts hputs)).place

theorem sameFileAt_setFiles {place : Location}
    (hplace : ∀ t ∈ targets, (fs.setFiles puts).placeOf? t.1 ≠ some place) :
    SameFileAt fs (fs.setFiles puts) place := by
  refine .of_eq (find?_setFiles_of_notMem (ne_nil_of_forall₂_puts hputs) fun hmem => ?_)
  obtain ⟨e, he, rfl⟩ := List.mem_map.mp hmem
  obtain ⟨t, ht, hname⟩ := Results.exists_of_mem_right (forall₂_placeOf? hputs) he
  exact hplace t ht hname

theorem keepsFileOf_setFiles {p : Path} (hp : ∀ t ∈ targets, (fs.setFiles puts).Apart t.1 p) :
    KeepsFileOf fs (fs.setFiles puts) p :=
  fun place hplace => sameFileAt_setFiles hputs fun t ht hname => hp t ht place hname hplace

variable (hapart : (targets.map Prod.fst).Pairwise (fs.setFiles puts).Apart)
include hapart

theorem nodup_places : (puts.map Prod.fst).Nodup := by
  have hnames := forall₂_placeOf? hputs
  generalize fs.setFiles puts = gs at hapart hnames
  clear hputs
  induction hnames with
  | nil => exact List.nodup_nil
  | @cons t e ts es hname hrest ih =>
      rw [List.map_cons, List.pairwise_cons] at hapart
      rw [List.map_cons, List.nodup_cons]
      refine ⟨fun hmem => ?_, ih hapart.2⟩
      obtain ⟨other, hother, heq⟩ := List.mem_map.mp hmem
      obtain ⟨u, hu, huname⟩ := Results.exists_of_mem_right hrest hother
      rw [heq] at huname
      exact hapart.1 u.1 (List.mem_map_of_mem hu) e.1 hname huname

theorem holds_setFiles : ∀ t ∈ targets, (fs.setFiles puts).Holds t.1 t.2 := by
  intro t ht
  obtain ⟨e, he, hput⟩ := Results.exists_of_mem_left hputs ht
  have hplace := (hput.setFiles (free_of_forall₂_puts hputs)).place
  rw [find?_setFiles_of_mem (ne_nil_of_forall₂_puts hputs) (nodup_places hputs hapart) he] at hplace
  exact ⟨e.2, hput.bytes, read_of_resolve hplace⟩

theorem exists_file_setFiles {place : Location} {content : Bytes}
    (h : fs.find? place = some (.file content)) :
    ∃ other, (fs.setFiles puts).find? place = some (.file other) := by
  have hne := ne_nil_of_forall₂_puts hputs
  by_cases hmem : place ∈ puts.map Prod.fst
  · obtain ⟨e, he, rfl⟩ := List.mem_map.mp hmem
    exact ⟨e.2, find?_setFiles_of_mem hne (nodup_places hputs hapart) he⟩
  · exact ⟨content, by rw [find?_setFiles_of_notMem hne hmem, h]⟩

end Targets

end SchemaDocs.FileSystem
