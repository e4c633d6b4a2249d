import SchemaDocs.Proofs.FileSystem.Puts
import SchemaDocs.Proofs.WrittenDocuments
/-!
# What writing targets does

Preparing targets that are files of one directory makes this directory, and nothing if it is there.
Writing targets succeeds exactly if every one of them has a place before the first one is written,
and then the files are put there in order and every path goes to the log.

* `prepareTargets_eq_ok_iff`, `prepareDirectory_of_isDirectory`: how targets are prepared;
* `writeTargets_eq_ok_iff`: when targets are written, and what is left then.
-/

namespace SchemaDocs

open FileSystem (IsDirectory KeepsDirectories Puts)

/-! ## Runs that keep directories -/

instance : Std.Refl KeepsDirectories := ⟨KeepsDirectories.refl⟩

instance : IsTrans FileSystem KeepsDirectories := ⟨fun _ _ _ => KeepsDirectories.trans⟩

namespace Run

theorem makeDirectories_eq_ok_iff {p : Path} {mayExist : Bool} {w v : World} :
    makeDirectories p mayExist w = .ok () v ↔
      w.files.makeDirectories p mayExist = (v.files, .ok ()) ∧ v.log = w.log := by
  unfold makeDirectories change
  dsimp only
  cases w.files.makeDirectories p mayExist with
  | mk files outcome =>
      cases outcome with
      | error error => simp
      | ok _ =>
          constructor
          · intro h
            cases h
            exact ⟨rfl, rfl⟩
          · rintro ⟨hfiles, hlog⟩
            cases hfiles
            dsimp only
            rw [← hlog]

theorem keepsDirectories_makeDirectories (p : Path) (mayExist : Bool) :
    Keeps KeepsDirectories (makeDirectories p mayExist) :=
  keeps_change fun fs => fs.keepsDirectories_makeDirectories p mayExist

theorem isDirectory_of_makeDirectories {p : Path} {mayExist : Bool} {w v : World}
    (h : makeDirectories p mayExist w = .ok () v) : v.files.IsDirectory p :=
  FileSystem.isDirectory_of_makeDirectories (makeDirectories_eq_ok_iff.mp h).1

theorem makeDirectories_of_isDirectory {p : Path} {w : World} (h : w.files.IsDirectory p) :
    makeDirectories p true w = .ok () w :=
  makeDirectories_eq_ok_iff.mpr ⟨FileSystem.makeDirectories_of_isDirectory h, rfl⟩

theorem writeFile_eq_ok_iff {p : Path} {t : Text} {w v : World} :
    writeFile p t w = .ok () v ↔
      ∃ e, w.files.Puts (p, t) e ∧ v = { w with files := w.files.set e.1 (.file e.2) } := by
  constructor
  · intro h
    unfold writeFile at h
    split at h
    · cases h
    · next opened place hopen =>
        split at h
        · cases h
        · next bytes hbytes =>
            cases h
            obtain ⟨-, -, -, rfl⟩ := FileSystem.openForWriting_eq_ok hopen
            refine ⟨(place, bytes), FileSystem.puts_iff_openForWriting.mpr ⟨⟨_, hopen⟩, hbytes⟩, ?_⟩
            rw [FileSystem.set_set]
  · rintro ⟨e, hputs, rfl⟩
    obtain ⟨⟨opened, hopen⟩, hbytes⟩ := FileSystem.puts_iff_openForWriting.mp hputs
    obtain ⟨-, -, -, rfl⟩ := FileSystem.openForWriting_eq_ok hopen
    simp only [writeFile, hopen, hbytes, FileSystem.set_set]

end Run

namespace DocumentPair

/-! ## Preparing -/

theorem prepareDirectory_of_isDirectory {directory : Path} {w : World}
    (h : w.files.IsDirectory directory) : prepareDirectory directory w = .ok () w := by
  have hask : Run.ask (fun fs => fs.contains directory) w = .ok true w := by
    rw [Run.ask, FileSystem.contains_of_isDirectory h]
  rw [prepareDirectory, Run.bind_of_ok hask]
  rfl

theorem prepareTargets_of_isDirectory {targets : List (Path × Text)} {w : World}
    (h : ∀ t ∈ targets, w.files.IsDirectory t.1.parent) :
    prepareTargets targets w = .ok () w := by
  induction targets with
  | nil => rfl
  | cons t rest ih =>
      obtain ⟨hfirst, hrest⟩ := List.forall_mem_cons.mp h
      rw [prepareTargets, Run.bind_of_ok (Run.makeDirectories_of_isDirectory hfirst)]
      exact ih hrest

theorem prepareTargets_eq_ok_iff {targets : List (Path × Text)} {directory : Path}
    (hne : targets ≠ []) (hparent : ∀ t ∈ targets, t.1.parent = directory) {w v : World} :
    prepareTargets targets w = .ok () v ↔ Run.makeDirectories directory true w = .ok () v := by
  cases targets with
  | nil => exact absurd rfl hne
  | cons t rest =>
      obtain ⟨hfirst, hrest⟩ := List.forall_mem_cons.mp hparent
      have hothers : ∀ {u : World}, u.files.IsDirectory directory →
          prepareTargets rest u = .ok () u := fun hu =>
        prepareTargets_of_isDirectory fun x hx => by rwa [hrest x hx]
      rw [prepareTargets, hfirst, Run.bind_eq_ok]
      constructor
      · rintro ⟨_, u, hmade, h⟩
        rw [hothers (Run.isDirectory_of_makeDirectories hmade)] at h
        cases h
        exact hmade
      · intro hmade
        exact ⟨(), v, hmade, hothers (Run.isDirectory_of_makeDirectories hmade)⟩

/-! ## Writing -/

def writtenLine (path : Path) : LogLine :=
  ⟨.info, "Documentation generated! Check '" ++ path.text ++ "'"⟩

/-- Targets are written exactly if each of them has a place, as the files are before.  Their files
are put there one after the other. -/
theorem writeTargets_eq_ok_iff {targets : List (Path × Text)} {w v : World} {written : List Path} :
    writeTargets targets w = .ok written v ↔
      ∃ puts, List.Forall₂ w.files.Puts targets puts ∧ written = targets.map Prod.fst ∧
        v = { files := w.files.setFiles puts
              log := w.log ++ targets.map fun t => writtenLine t.1 } := by
  induction targets generalizing w v written with
  | nil =>
      simp only [List.forall₂_nil_left_iff, exists_eq_left, List.map_nil, List.append_nil]
      constructor
      · intro h
        cases h
        exact ⟨rfl, rfl⟩
      · rintro ⟨rfl, rfl⟩
        rfl
  | cons t rest ih =>
      obtain ⟨path, document⟩ := t
      constructor
      · intro h
        obtain ⟨_, u, hwrite, h⟩ := Run.bind_eq_ok.mp h
        obtain ⟨e, hfirst, rfl⟩ := Run.writeFile_eq_ok_iff.mp hwrite
        obtain ⟨_, x, hlog, h⟩ := Run.bind_eq_ok.mp h
        cases hlog
        obtain ⟨others, y, hrest, h⟩ := Run.bind_eq_ok.mp h
        cases h
        obtain ⟨puts, hputs, rfl, rfl⟩ := ih.mp hrest
        refine ⟨e :: puts, .cons hfirst (hputs.imp fun _ _ => .of_set hfirst.free), rfl, ?_⟩
        simp [FileSystem.setFiles, writtenLine]
      · rintro ⟨puts, hputs, rfl, rfl⟩
        obtain ⟨e, others, hfirst, hothers, rfl⟩ := List.forall₂_cons_left_iff.mp hputs
        let u : World := { files := w.files.set e.1 (.file e.2), log := w.log ++ [writtenLine path] }
        have hrest := ih (w := u).mpr
          ⟨others, hothers.imp fun _ _ h => h.set hfirst.free e.2, rfl, rfl⟩
        refine Run.bind_eq_ok.mpr ⟨(), _, Run.writeFile_eq_ok_iff.mpr ⟨e, hfirst, rfl⟩, ?_⟩
        refine Run.bind_eq_ok.mpr ⟨(), u, rfl, Run.bind_eq_ok.mpr ⟨_, _, hrest, ?_⟩⟩
        simp [FileSystem.setFiles, u, pure, EStateM.pure]

end DocumentPair

end SchemaDocs
