import SchemaDocs.Proofs.FileSystem.MadeDirectories
import SchemaDocs.Proofs.FileSystem.Places
import SchemaDocs.Proofs.WrittenTargets
/-!
# The effect of writing the documents

Writing the documents makes directories first and then the files one after the other.  However it
ends, the files up to one of them are written and logged, the one after these is as it was or empty,
and everything else is as it was, apart from directories on the paths to the files.

* `prepareDirectory_cases`, `prepareTargets_cases`, `writeTargets_cases`: how each stage can end;
* `WriteEffect`: what is left after some targets are written and others are not;
* `WriteOutcome`: how writing the documents can end.
-/

namespace SchemaDocs

open FileSystem (Apart IsThere KeepsDirectories KeepsFileOf LiesOn MakesOn Puts SameFileAt SameFiles)

namespace Run

theorem final_of_ok {α : Type} {m : Run α} {w v : World} {a : α} (h : m w = .ok a v) :
    final m w = v := by
  rw [final, h]

theorem final_of_error {α : Type} {m : Run α} {w v : World} {failure : Failure}
    (h : m w = .error failure v) : final m w = v := by
  rw [final, h]

theorem makeDirectories_cases (p : Path) (mayExist : Bool) (w : World) :
    (w.files.makeDirectories p mayExist).2 = .ok () ∧ makeDirectories p mayExist w =
        .ok () { w with files := (w.files.makeDirectories p mayExist).1 } ∨
      (w.files.makeDirectories p mayExist).2 ≠ .ok () ∧ ∃ failure, makeDirectories p mayExist w =
        .error failure { w with files := (w.files.makeDirectories p mayExist).1 } := by
  unfold makeDirectories change
  dsimp only
  cases w.files.makeDirectories p mayExist with
  | mk files outcome =>
      cases outcome with
      | ok _ => exact .inl ⟨rfl, rfl⟩
      | error error =>
          refine .inr ⟨?_, _, rfl⟩
          intro h
          cases h

theorem writeFile_left {p : Path} {t : Text} {w v : World} {failure : Failure}
    (h : writeFile p t w = .error failure v) :
    v = w ∨ ∃ place, w.files.Puts (p, []) (place, []) ∧
      v = { w with files := w.files.set place (.file []) } := by
  unfold writeFile at h
  split at h
  · cases h
    exact .inl rfl
  · next opened place hopen =>
      split at h
      · cases h
        obtain ⟨-, -, -, rfl⟩ := FileSystem.openForWriting_eq_ok hopen
        exact .inr ⟨place, FileSystem.puts_iff_openForWriting.mpr ⟨⟨_, hopen⟩, rfl⟩, rfl⟩
      · cases h

end Run

namespace DocumentPair

/-! ## Making the directories -/

def createdLine : LogLine :=
  ⟨.info, "Docs directory created."⟩

/-- Whether nothing is at the directory of the documents and it can be made. -/
def MakesDirectory (fs : FileSystem) (directory : Path) : Prop :=
  ¬ fs.IsThere directory ∧ (fs.makeDirectories directory false).2 = .ok ()

theorem prepareDirectory_cases (directory : Path) (w : World) :
    w.files.IsThere directory ∧ prepareDirectory directory w = .ok () w ∨
      MakesDirectory w.files directory ∧ prepareDirectory directory w =
        .ok () { files := (w.files.makeDirectories directory false).1
                 log := w.log ++ [createdLine] } ∨
      ¬ w.files.IsThere directory ∧ ¬ MakesDirectory w.files directory ∧
        ∃ failure v, prepareDirectory directory w = .error failure v ∧ v.log = w.log := by
  have hthere : w.files.contains directory = .ok true ↔ w.files.IsThere directory :=
    FileSystem.contains_eq_ok_true_iff
  unfold prepareDirectory
  cases hcontains : w.files.contains directory with
  | error error =>
      have hask : Run.ask (fun fs => fs.contains directory) w = .error (.file error) w := by
        rw [Run.ask, hcontains]
      have hnone : ¬ w.files.IsThere directory := by
        rw [← hthere, hcontains]
        intro h
        cases h
      refine .inr (.inr ⟨hnone, fun hmakes => ?_, _, _, Run.bind_of_error hask _, rfl⟩)
      have hmade := hmakes.2
      rw [FileSystem.makeDirectories_of_contains hcontains] at hmade
      cases hmade
  | ok found =>
      have hask : Run.ask (fun fs => fs.contains directory) w = .ok found w := by
        rw [Run.ask, hcontains]
      rw [Run.bind_of_ok hask]
      cases found with
      | true => exact .inl ⟨hthere.mp hcontains, rfl⟩
      | false =>
          have hnone : ¬ w.files.IsThere directory := by
            rw [← hthere, hcontains]
            intro h
            cases h
          rcases Run.makeDirectories_cases directory false w with
            ⟨hmade, hrun⟩ | ⟨hfailed, failure, hrun⟩
          · exact .inr (.inl ⟨⟨hnone, hmade⟩, Run.bind_of_ok hrun _⟩)
          · exact .inr (.inr ⟨hnone, fun hmakes => hfailed hmakes.2, failure, _,
              Run.bind_of_error hrun _, rfl⟩)

/-- Whether directories can be made one after the other, and the tree after that. -/
def MakesAll : FileSystem → List Path → FileSystem → Prop
  | fs, [], gs => gs = fs
  | fs, p :: rest, gs =>
    (fs.makeDirectories p true).2 = .ok () ∧ MakesAll (fs.makeDirectories p true).1 rest gs

theorem prepareTargets_cases (targets : List (Path × Text)) (w : World) :
    (∃ gs, MakesAll w.files (targets.map fun t => t.1.parent) gs ∧
        prepareTargets targets w = .ok () { w with files := gs }) ∨
      (¬ ∃ gs, MakesAll w.files (targets.map fun t => t.1.parent) gs) ∧
        ∃ failure v, prepareTargets targets w = .error failure v ∧ v.log = w.log := by
  induction targets generalizing w with
  | nil => exact .inl ⟨w.files, rfl, rfl⟩
  | cons t rest ih =>
      rw [prepareTargets, List.map_cons]
      rcases Run.makeDirectories_cases t.1.parent true w with
        ⟨hmade, hrun⟩ | ⟨hfailed, failure, hrun⟩
      · rw [Run.bind_of_ok hrun]
        rcases ih { w with files := (w.files.makeDirectories t.1.parent true).1 } with
          ⟨gs, hall, hrest⟩ | ⟨hnone, hrest⟩
        · exact .inl ⟨gs, ⟨hmade, hall⟩, hrest⟩
        · refine .inr ⟨?_, hrest⟩
          rintro ⟨gs, -, hall⟩
          exact hnone ⟨gs, hall⟩
      · refine .inr ⟨?_, failure, _, Run.bind_of_error hrun _, rfl⟩
        rintro ⟨gs, hmade, -⟩
        exact hfailed hmade

/-- Whether every directory can be made: that of the documents, unless something is there, and then
those of the targets. -/
def CanPrepare (fs : FileSystem) (directory : Path) (parents : List Path) : Prop :=
  (fs.IsThere directory ∧ ∃ gs, MakesAll fs parents gs) ∨
    MakesDirectory fs directory ∧
      ∃ gs, MakesAll (fs.makeDirectories directory false).1 parents gs

/-! ## Writing the files -/

/-- Targets are written, or some of them are written and the next one is not: then it is left as it
is, or it is left empty. -/
theorem writeTargets_cases (targets : List (Path × Text)) (w : World) :
    (∃ puts, List.Forall₂ w.files.Puts targets puts ∧
        writeTargets targets w = .ok (targets.map Prod.fst)
          { files := w.files.setFiles puts
            log := w.log ++ targets.map fun t => writtenLine t.1 }) ∨
      ∃ failure done t later emptied puts, targets = done ++ t :: later ∧
        (emptied = [] ∨ emptied = [(t.1, [])]) ∧ List.Forall₂ w.files.Puts (done ++ emptied) puts ∧
        writeTargets targets w = .error failure
          { files := w.files.setFiles puts
            log := w.log ++ done.map fun t => writtenLine t.1 } := by
  induction targets generalizing w with
  | nil => exact .inl ⟨[], .nil, writeTargets_eq_ok_iff.mpr ⟨[], .nil, rfl, rfl⟩⟩
  | cons t rest ih =>
      obtain ⟨path, document⟩ := t
      cases hwrite : Run.writeFile path document w with
      | error failure v =>
          have hrun : writeTargets ((path, document) :: rest) w = .error failure v :=
            Run.bind_of_error hwrite _
          rcases Run.writeFile_left hwrite with rfl | ⟨place, hputs, rfl⟩
          · refine .inr ⟨failure, [], (path, document), rest, [], [], rfl, .inl rfl, .nil, ?_⟩
            rw [hrun, List.map_nil, List.append_nil]
            rfl
          · refine .inr ⟨failure, [], (path, document), rest, [(path, [])], [(place, [])], rfl,
              .inr rfl, .cons hputs .nil, ?_⟩
            rw [hrun, List.map_nil, List.append_nil]
            rfl
      | ok _ u =>
          obtain ⟨e, hfirst, rfl⟩ := Run.writeFile_eq_ok_iff.mp hwrite
          rcases ih { files := w.files.set e.1 (.file e.2), log := w.log ++ [writtenLine path] } with
            ⟨puts, hputs, -⟩ |
              ⟨failure, done, next, later, emptied, puts, rfl, hemptied, hputs, hrest⟩
          · have hall := List.Forall₂.cons hfirst (hputs.imp fun _ _ => .of_set hfirst.free)
            exact .inl ⟨_, hall, writeTargets_eq_ok_iff.mpr ⟨_, hall, rfl, rfl⟩⟩
          · have hall := List.Forall₂.cons hfirst (hputs.imp fun _ _ => .of_set hfirst.free)
            refine .inr ⟨failure, (path, document) :: done, next, later, emptied, e :: puts, rfl,
              hemptied, hall, ?_⟩
            have hrun : writeTargets ((path, document) :: (done ++ next :: later)) w =
                .error failure { files := (w.files.set e.1 (.file e.2)).setFiles puts
                                 log := w.log ++ [writtenLine path] ++
                                   done.map fun t => writtenLine t.1 } :=
              (Run.bind_of_ok hwrite _).trans (Run.bind_of_error hrest _)
            rw [List.append_assoc, List.singleton_append] at hrun
            exact hrun

/-! ## The effect -/

def parents (targets : List (Path × Text)) : List Path :=
  targets.map fun t => t.1.parent

/-- What is left of a world in which some targets were written into a directory and others were
not. -/
structure WriteEffect (directory : Path) (done left : List (Path × Text)) (w v : World) :
    Prop where
  holds : ∀ t ∈ done, v.files.Holds t.1 t.2
  /-- The first target that was not written is as it was, or empty. -/
  next : ∀ t ∈ left.head?, KeepsFileOf w.files v.files t.1 ∨ v.files.read t.1 = .ok []
  later : ∀ t ∈ left.tail, KeepsFileOf w.files v.files t.1
  others : ∀ place, (∀ t ∈ done ++ left, v.files.placeOf? t.1 ≠ some place) →
    SameFileAt w.files v.files place
  keepsDirectories : KeepsDirectories w.files v.files
  keepsFiles : ∀ place content, w.files.find? place = some (.file content) →
    ∃ other, v.files.find? place = some (.file other)
  directories : ∀ place, v.files.find? place = some .directory →
    w.files.find? place = some .directory ∨
      ∃ p ∈ directory :: parents (done ++ left), v.files.LiesOn p place
  log_of_makes : MakesDirectory w.files directory →
    v.log = w.log ++ createdLine :: done.map fun t => writtenLine t.1
  log_of_not_makes : ¬ MakesDirectory w.files directory →
    v.log = w.log ++ done.map fun t => writtenLine t.1

def LogsDirectory (directory : Path) (w x : World) : Prop :=
  (MakesDirectory w.files directory → x.log = w.log ++ [createdLine]) ∧
    (¬ MakesDirectory w.files directory → x.log = w.log)

section Emptied

theorem apart_of_append {fs : FileSystem} {front back : List (Path × Text)}
    (h : ((front ++ back).map Prod.fst).Pairwise fs.Apart) {s t : Path × Text} (hs : s ∈ front)
    (ht : t ∈ back) : fs.Apart s.1 t.1 := by
  rw [List.map_append, List.pairwise_append] at h
  exact h.2.2 s.1 (List.mem_map_of_mem hs) t.1 (List.mem_map_of_mem ht)

/-- What is emptied is the first target that is left, or nothing. -/
def IsEmptied (left emptied : List (Path × Text)) : Prop :=
  emptied = [] ∨ ∃ t, left.head? = some t ∧ emptied = [(t.1, [])]

variable {done left emptied : List (Path × Text)} (hemptied : IsEmptied left emptied)
include hemptied

theorem prefix_of_isEmptied :
    (done ++ emptied).map Prod.fst <+: (done ++ left).map Prod.fst := by
  rw [List.map_append, List.map_append, List.prefix_append_right_inj]
  rcases hemptied with rfl | ⟨t, hleft, rfl⟩
  · exact List.nil_prefix
  · obtain ⟨later, rfl⟩ := List.head?_eq_some_iff.mp hleft
    exact ⟨later.map Prod.fst, rfl⟩

theorem apart_of_mem_tail {fs : FileSystem}
    (hapart : ((done ++ left).map Prod.fst).Pairwise fs.Apart) {t : Path × Text}
    (ht : t ∈ left.tail) : ∀ s ∈ done ++ emptied, fs.Apart s.1 t.1 := by
  intro s hs
  cases left with
  | nil => exact absurd ht List.not_mem_nil
  | cons first rest =>
      rw [List.append_cons] at hapart
      rcases List.mem_append.mp hs with hdone | hmem
      · exact apart_of_append hapart (List.mem_append_left [first] hdone) ht
      · rcases hemptied with rfl | ⟨_, hfirst, rfl⟩
        · exact absurd hmem List.not_mem_nil
        · cases hfirst
          rw [List.mem_singleton.mp hmem]
          exact apart_of_append (s := first) hapart (by simp) ht

end Emptied

theorem writeEffect_setFiles {directory : Path} {done left emptied : List (Path × Text)}
    {w x : World} {puts : List (Location × Bytes)}
    (hmakes : MakesOn (directory :: parents (done ++ left)) w.files x.files)
    (hlog : LogsDirectory directory w x) (hemptied : IsEmptied left emptied)
    (hputs : List.Forall₂ x.files.Puts (done ++ emptied) puts)
    (hapart : ((done ++ left).map Prod.fst).Pairwise (x.files.setFiles puts).Apart) :
    WriteEffect directory done left w
      { files := x.files.setFiles puts
        log := x.log ++ done.map fun t => writtenLine t.1 } := by
  have hinitial : (done ++ emptied).map Prod.fst <+: (done ++ left).map Prod.fst :=
    prefix_of_isEmptied hemptied
  have hputsApart := hapart.sublist hinitial.sublist
  have hholds := FileSystem.holds_setFiles hputs hputsApart
  have hfree := FileSystem.free_of_forall₂_puts hputs
  constructor
  case holds => exact fun t ht => hholds t (List.mem_append_left emptied ht)
  case next =>
    intro t ht
    rcases hemptied with rfl | ⟨first, hleft, rfl⟩
    · refine .inl fun place hplace => hmakes.sameFiles.trans_sameFileAt ?_
      refine FileSystem.keepsFileOf_setFiles hputs (fun s hs => ?_) place hplace
      rw [List.append_nil] at hs
      exact apart_of_append hapart hs (List.mem_of_mem_head? ht)
    · rw [hleft] at ht
      cases ht
      obtain ⟨bytes, hbytes, hread⟩ :=
        hholds (t.1, []) (List.mem_append_right done (List.mem_singleton_self _))
      cases hbytes
      exact .inr hread
  case later =>
    intro t ht place hplace
    exact hmakes.sameFiles.trans_sameFileAt
      (FileSystem.keepsFileOf_setFiles hputs (apart_of_mem_tail hemptied hapart ht) place hplace)
  case others =>
    intro place hplace
    refine hmakes.sameFiles.trans_sameFileAt (FileSystem.sameFileAt_setFiles hputs fun t ht => ?_)
    obtain ⟨u, hu, heq⟩ := List.mem_map.mp (hinitial.subset (List.mem_map_of_mem ht))
    rw [← heq]
    exact hplace u hu
  case keepsDirectories =>
    exact hmakes.keeps.trans (FileSystem.keepsDirectories_setFiles hfree)
  case keepsFiles =>
    intro place content hplace
    exact FileSystem.exists_file_setFiles hputs hputsApart
      ((hmakes.sameFiles place content).mpr hplace)
  case directories =>
    intro place hplace
    have hbefore : x.files.find? place = some .directory :=
      not_imp_not.mp (FileSystem.free_setFiles_iff hfree place).mpr hplace
    rcases hmakes.made place hbefore with hw | ⟨p, hp, hlies⟩
    · exact .inl hw
    · exact .inr ⟨p, hp, hlies.keeps (FileSystem.keepsDirectories_setFiles hfree)⟩
  case log_of_makes =>
    intro hmade
    dsimp only
    rw [hlog.1 hmade, List.append_assoc, List.singleton_append]
  case log_of_not_makes =>
    intro hnot
    dsimp only
    rw [hlog.2 hnot]

/-! ## Preparing and writing -/

instance (paths : List Path) : Std.Refl (MakesOn paths) := ⟨MakesOn.refl⟩

instance (paths : List Path) : IsTrans FileSystem (MakesOn paths) := ⟨fun _ _ _ => MakesOn.trans⟩

theorem makesOn_makeDirectories {paths : List Path} {p : Path} (hp : p ∈ paths) (mayExist : Bool) :
    Run.Keeps (MakesOn paths) (Run.makeDirectories p mayExist) := by
  refine Run.keeps_change fun fs => (fs.makesOn_makeDirectories p mayExist).imp ?_
  intro q hq place hlies
  rw [List.mem_singleton.mp hq] at hlies
  exact ⟨p, hp, hlies⟩

theorem makesOn_prepareDirectory {paths : List Path} {directory : Path} (h : directory ∈ paths) :
    Run.Keeps (MakesOn paths) (prepareDirectory directory) := by
  refine Run.keeps_bind (Run.keeps_ask _) fun found => ?_
  cases found with
  | true => exact Run.keeps_pure ()
  | false => exact Run.keeps_bind (makesOn_makeDirectories h false) fun _ => Run.keeps_log _ _

theorem makesOn_prepareTargets {paths : List Path} {targets : List (Path × Text)}
    (h : ∀ p ∈ parents targets, p ∈ paths) :
    Run.Keeps (MakesOn paths) (prepareTargets targets) := by
  induction targets with
  | nil => exact Run.keeps_pure ()
  | cons t rest ih =>
      rw [parents, List.map_cons, List.forall_mem_cons] at h
      exact Run.keeps_bind (makesOn_makeDirectories h.1 true) fun _ => ih h.2

/-- All that is made before the first file is written. -/
def prepareAll (directory : Path) (targets : List (Path × Text)) : Run Unit := do
  prepareDirectory directory
  prepareTargets targets

theorem makesOn_prepareAll (directory : Path) (targets : List (Path × Text)) :
    Run.Keeps (MakesOn (directory :: parents targets)) (prepareAll directory targets) :=
  Run.keeps_bind (makesOn_prepareDirectory List.mem_cons_self) fun _ =>
    makesOn_prepareTargets fun _ hp => List.mem_cons_of_mem directory hp

theorem write_eq (d : DocumentPair) (directory : Path) (htmlFile markdownFile : Option Text) :
    d.write directory htmlFile markdownFile =
      prepareAll directory (d.targets directory htmlFile markdownFile) >>= fun _ =>
        writeTargets (d.targets directory htmlFile markdownFile) := by
  rw [prepareAll, bind_assoc]
  rfl

theorem prepareAll_cases (directory : Path) (targets : List (Path × Text)) (w : World) :
    CanPrepare w.files directory (parents targets) ∧
        (∃ x, prepareAll directory targets w = .ok () x ∧ LogsDirectory directory w x) ∨
      ¬ CanPrepare w.files directory (parents targets) ∧
        ∃ failure x, prepareAll directory targets w = .error failure x ∧
          LogsDirectory directory w x := by
  rcases prepareDirectory_cases directory w with
    ⟨hthere, hrun⟩ | ⟨hmakes, hrun⟩ | ⟨hnone, hnot, failure, v, hrun, hlog⟩
  · have hnot : ¬ MakesDirectory w.files directory := fun hmakes => hmakes.1 hthere
    rw [prepareAll, Run.bind_of_ok hrun]
    rcases prepareTargets_cases targets w with
      ⟨gs, hall, hrest⟩ | ⟨hfails, failure, v, hrest, hlog⟩
    · exact .inl ⟨.inl ⟨hthere, gs, hall⟩, _, hrest, fun h => absurd h hnot, fun _ => rfl⟩
    · refine .inr ⟨?_, failure, v, hrest, fun h => absurd h hnot, fun _ => hlog⟩
      rintro (⟨-, hall⟩ | ⟨hmakes, -⟩)
      · exact hfails hall
      · exact hnot hmakes
  · rw [prepareAll, Run.bind_of_ok hrun]
    rcases prepareTargets_cases targets
        { files := (w.files.makeDirectories directory false).1, log := w.log ++ [createdLine] } with
      ⟨gs, hall, hrest⟩ | ⟨hfails, failure, v, hrest, hlog⟩
    · exact .inl ⟨.inr ⟨hmakes, gs, hall⟩, _, hrest, fun _ => rfl, fun h => absurd hmakes h⟩
    · refine .inr ⟨?_, failure, v, hrest, fun _ => hlog, fun h => absurd hmakes h⟩
      rintro (⟨hthere, -⟩ | ⟨-, hall⟩)
      · exact hmakes.1 hthere
      · exact hfails hall
  · refine .inr ⟨?_, failure, v, Run.bind_of_error hrun _, fun h => absurd h hnot, fun _ => hlog⟩
    rintro (⟨hthere, -⟩ | ⟨hmakes, -⟩)
    · exact hnone hthere
    · exact hnot hmakes

/-- How a run that writes targets into a directory can end. -/
structure WriteOutcome (directory : Path) (targets done left : List (Path × Text))
    (m : Run (List Path)) (w : World) : Prop where
  split : targets = done ++ left
  effect : WriteEffect directory done left w (Run.final m w)
  succeeds : (∃ written v, m w = .ok written v) ↔
    left = [] ∧ CanPrepare w.files directory (parents targets)
  written : ∀ written v, m w = .ok written v → written = targets.map Prod.fst
  unprepared : ¬ CanPrepare w.files directory (parents targets) →
    done = [] ∧ SameFiles w.files (Run.final m w).files

namespace WriteOutcome

variable {directory : Path} {targets done left : List (Path × Text)} {m : Run (List Path)}
  {w v : World}

theorem of_ok (hm : m w = .ok (targets.map Prod.fst) v)
    (heffect : WriteEffect directory targets [] w v)
    (hcan : CanPrepare w.files directory (parents targets)) :
    WriteOutcome directory targets targets [] m w where
  split := (List.append_nil _).symm
  effect := by rwa [Run.final_of_ok hm]
  succeeds := iff_of_true ⟨_, _, hm⟩ ⟨rfl, hcan⟩
  written := by
    intro written u h
    cases hm.symm.trans h
    rfl
  unprepared := fun hcannot => absurd hcan hcannot

theorem of_error {failure : Failure} (hm : m w = .error failure v) (hsplit : targets = done ++ left)
    (heffect : WriteEffect directory done left w v)
    (hfails : ¬ (left = [] ∧ CanPrepare w.files directory (parents targets)))
    (hunprepared : ¬ CanPrepare w.files directory (parents targets) →
      done = [] ∧ SameFiles w.files v.files) :
    WriteOutcome directory targets done left m w where
  split := hsplit
  effect := by rwa [Run.final_of_error hm]
  succeeds := by
    refine iff_of_false ?_ hfails
    rintro ⟨_, _, h⟩
    cases hm.symm.trans h
  written := by
    intro written u h
    cases hm.symm.trans h
  unprepared := by rwa [Run.final_of_error hm]

end WriteOutcome

/-- Writing the documents ends with some targets written, the next one as it was or empty and the
later ones as they were, provided that no two of them have the same place.  It succeeds exactly if
all of them are written and every directory could be made.  Where a directory could not be made no
file is written. -/
theorem exists_writeOutcome (d : DocumentPair) (directory : Path)
    (htmlFile markdownFile : Option Text) (w : World)
    (hapart : ((d.targets directory htmlFile markdownFile).map Prod.fst).Pairwise
      (Run.final (d.write directory htmlFile markdownFile) w).files.Apart) :
    ∃ done left, WriteOutcome directory (d.targets directory htmlFile markdownFile) done left
      (d.write directory htmlFile markdownFile) w := by
  rw [write_eq] at hapart ⊢
  generalize d.targets directory htmlFile markdownFile = targets at hapart ⊢
  have hmakes := makesOn_prepareAll directory targets w
  rcases prepareAll_cases directory targets w with
    ⟨hcan, x, hrun, hlog⟩ | ⟨hcannot, failure, x, hrun, hlog⟩
  · rw [Run.final_of_ok hrun] at hmakes
    rcases writeTargets_cases targets x with ⟨puts, hputs, hwrite⟩ |
      ⟨failure, done, t, later, emptied, puts, rfl, hemptied, hputs, hwrite⟩
    · have hwhole := (Run.bind_of_ok hrun fun _ => writeTargets targets).trans hwrite
      have hnone : IsEmptied [] [] := .inl rfl
      rw [Run.final_of_ok hwhole] at hapart
      rw [← List.append_nil targets] at hmakes hputs hapart
      exact ⟨targets, [], .of_ok hwhole (writeEffect_setFiles hmakes hlog hnone hputs hapart) hcan⟩
    · have hwhole := (Run.bind_of_ok hrun fun _ => writeTargets (done ++ t :: later)).trans hwrite
      have hnext : IsEmptied (t :: later) emptied := hemptied.imp_right fun hone => ⟨t, rfl, hone⟩
      rw [Run.final_of_error hwhole] at hapart
      refine ⟨done, t :: later, .of_error hwhole rfl
        (writeEffect_setFiles hmakes hlog hnext hputs hapart) ?_ fun hcannot => absurd hcan hcannot⟩
      rintro ⟨h, -⟩
      cases h
  · have hwhole := Run.bind_of_error hrun fun _ => writeTargets targets
    have hnone : IsEmptied targets [] := .inl rfl
    rw [Run.final_of_error hrun] at hmakes
    rw [Run.final_of_error hwhole] at hapart
    have heffect : WriteEffect directory [] targets w _ :=
      writeEffect_setFiles hmakes hlog hnone .nil hapart
    rw [List.map_nil, List.append_nil] at heffect
    exact ⟨[], targets, .of_error hwhole rfl heffect (fun h => hcannot h.2)
      fun _ => ⟨rfl, hmakes.sameFiles⟩⟩

/-- A world with a directory at the place of the second target. -/
def takenWorld : World where
  files := { nodes := [(["taken"], .directory)] }

def shortPair : DocumentPair where
  models := []
  html := "<p>"
  markdown := "# A"

/-- The first target is written below new directories, and the second one fails. -/
theorem exists_writeOutcome_taken :
    (∃ done left, WriteOutcome (.ofText "docs")
      (shortPair.targets (.ofText "docs") (some "a/page.html") (some "../taken")) done left
      (shortPair.write (.ofText "docs") (some "a/page.html") (some "../taken")) takenWorld) ∧
      (Run.final (shortPair.write (.ofText "docs") (some "a/page.html") (some "../taken"))
        takenWorld).log = [createdLine, writtenLine (.ofText "docs/a/page.html")] :=
  ⟨exists_writeOutcome shortPair (.ofText "docs") (some "a/page.html") (some "../taken") takenWorld
    (by decide), rfl⟩

end DocumentPair

end SchemaDocs
