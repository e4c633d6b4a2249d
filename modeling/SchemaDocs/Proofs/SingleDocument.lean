import SchemaDocs.Proofs.FileSystem.Tree
import SchemaDocs.Proofs.WriteEffect
/-!
# A single document

A document can be written to a file of its own, or as the only one of the two that is wanted in a
directory.  The first way makes the directory of the file if it is missing.  The second one asks
whether there is something, makes the directory if not, and then makes it again.  In a tree of files
both ways fail alike or succeed with the same files, though their logs differ.

* `Run.ending`: how a run ends, apart from its log;
* `ending_prepareAll`: what both ways do before the document is written;
* `ending_writeFile_eq_write`: the two ways of writing each document.
-/

namespace SchemaDocs

open SchemaDocs.Path (IsFileName)

namespace Run

variable {α β γ δ : Type}

/-- The failure of a run, if there is one, and the files that it leaves. -/
def ending (m : Run α) (w : World) : Option Failure × FileSystem :=
  match m w with
  | .ok _ v => (none, v.files)
  | .error failure v => (some failure, v.files)

theorem ending_of_ok {m : Run α} {w v : World} {a : α} (h : m w = .ok a v) :
    ending m w = (none, v.files) := by
  rw [ending, h]

theorem ending_of_error {m : Run α} {w v : World} {failure : Failure}
    (h : m w = .error failure v) : ending m w = (some failure, v.files) := by
  rw [ending, h]

theorem ending_bind {m : Run α} {n : Run β} {w x : World} (h : ending m w = ending n x)
    {f : α → Run γ} {g : β → Run δ}
    (hstep : ∀ a b u v, u.files = v.files → ending (f a) u = ending (g b) v) :
    ending (m >>= f) w = ending (n >>= g) x := by
  cases hm : m w with
  | ok a u =>
      cases hn : n x with
      | ok b v =>
          rw [ending_of_ok hm, ending_of_ok hn] at h
          rw [ending, ending, bind_of_ok hm, bind_of_ok hn]
          exact hstep a b u v (Prod.mk.inj h).2
      | error failure v =>
          rw [ending_of_ok hm, ending_of_error hn] at h
          cases (Prod.mk.inj h).1
  | error failure u =>
      cases hn : n x with
      | ok b v =>
          rw [ending_of_error hm, ending_of_ok hn] at h
          cases (Prod.mk.inj h).1
      | error other v =>
          rw [ending_of_error hm, ending_of_error hn] at h
          rw [ending_of_error (bind_of_error hm f), ending_of_error (bind_of_error hn g), h]

theorem ending_bind_left (m : Run α) {f : α → Run β} (hf : ∀ a u, ending (f a) u = (none, u.files))
    (w : World) : ending (m >>= f) w = ending m w := by
  cases hm : m w with
  | ok a u =>
      rw [ending_of_ok hm, ending, bind_of_ok hm]
      exact hf a u
  | error failure u => rw [ending_of_error hm, ending_of_error (bind_of_error hm f)]

theorem ending_change {step other : FileSystem → FileSystem × Except FileError Unit} {w x : World}
    (h : step w.files = other x.files) : ending (change step) w = ending (change other) x := by
  unfold ending change
  rw [h]
  cases other x.files with
  | mk files outcome => cases outcome <;> rfl

theorem ending_writeFile {w x : World} (h : w.files = x.files) (p : Path) (t : Text) :
    ending (writeFile p t) w = ending (writeFile p t) x := by
  unfold ending writeFile
  rw [h]
  cases x.files.openForWriting p with
  | error error => exact congrArg _ h
  | ok opened => cases Utf8.encode t <;> rfl

end Run

/-! ## Preparing -/

theorem FileSystem.not_isDirectory_of_contains {fs : FileSystem} {p : Path}
    (h : fs.contains p = .ok false) : ¬ fs.IsDirectory p := by
  intro hdirectory
  rw [contains_of_isDirectory hdirectory] at h
  cases h

namespace DocumentPair

variable {directory : Path} {w : World}

theorem ending_prepareAll (htree : w.files.IsTree) (hup : Path.up ∉ directory.components)
    {t : Path × Text} (hparent : t.1.parent = directory) :
    Run.ending (prepareAll directory [t]) w =
      Run.ending (Run.makeDirectories directory true) w := by
  have htargets : prepareTargets [t] =
      Run.makeDirectories directory true >>= fun _ => pure () := by
    rw [← hparent]
    rfl
  unfold prepareAll
  rw [htargets]
  cases hcontains : w.files.contains directory with
  | error error =>
      have hask : Run.ask (fun fs => fs.contains directory) w = .error (.file error) w := by
        rw [Run.ask, hcontains]
      have hmake := FileSystem.makeDirectories_of_contains hcontains true
      rw [prepareDirectory, Run.ending_of_error (Run.bind_of_error (Run.bind_of_error hask _) _)]
      unfold Run.ending Run.makeDirectories Run.change
      dsimp only
      rw [hmake]
  | ok found =>
      have hask : Run.ask (fun fs => fs.contains directory) w = .ok found w := by
        rw [Run.ask, hcontains]
      cases found with
      | true =>
          have hprepare : prepareDirectory directory w = .ok () w :=
            Run.bind_of_ok hask _
          rw [Run.ending, Run.bind_of_ok hprepare]
          exact Run.ending_bind_left _ (fun _ _ => rfl) w
      | false =>
          have hsame := FileSystem.makeDirectories_mayExist htree hup
            (FileSystem.not_isDirectory_of_contains hcontains)
          have hagain : Run.ending (Run.makeDirectories directory true) w =
              Run.ending (Run.makeDirectories directory false) w := Run.ending_change hsame
          rw [hagain]
          rcases Run.makeDirectories_cases directory false w with
            ⟨-, hrun⟩ | ⟨-, failure, hrun⟩
          · let made : World := { files := (w.files.makeDirectories directory false).1
                                  log := w.log ++ [createdLine] }
            have hprepare : prepareDirectory directory w = .ok () made :=
              (Run.bind_of_ok hask _).trans (Run.bind_of_ok hrun _)
            -- The directory is there by now, so making it again changes nothing.
            have hmade := Run.isDirectory_of_makeDirectories hrun
            have hthere : made.files.IsDirectory directory := hmade
            have htwice := Run.makeDirectories_of_isDirectory hthere
            rw [Run.ending_of_ok hrun,
              Run.ending_of_ok ((Run.bind_of_ok hprepare _).trans (Run.bind_of_ok htwice _))]
          · have hprepare : prepareDirectory directory w = .error failure _ :=
              (Run.bind_of_ok hask _).trans (Run.bind_of_error hrun _)
            rw [Run.ending_of_error hrun]
            exact Run.ending_of_error (Run.bind_of_error hprepare _)

/-! ## Writing -/

theorem ending_writeTarget (htree : w.files.IsTree) (hup : Path.up ∉ directory.components)
    {path : Path} (hparent : path.parent = directory) (document : Text) :
    Run.ending (prepareAll directory [(path, document)] >>= fun _ =>
        writeTargets [(path, document)]) w =
      Run.ending (Run.makeDirectories directory true >>= fun _ =>
        Run.writeFile path document) w := by
  refine Run.ending_bind (ending_prepareAll htree hup hparent) fun _ _ u v hfiles => ?_
  rw [← Run.ending_writeFile hfiles]
  exact Run.ending_bind_left (Run.writeFile path document) (fun _ _ => rfl) u

/-- Writing a document to a file of a directory ends, apart from the log, as writing it as the only
one that is wanted there. -/
theorem ending_writeFile_eq_write {title : Text} {models : List Model} {d : DocumentPair}
    (hd : ofModels title models = .ok d) (htree : w.files.IsTree)
    (hup : Path.up ∉ directory.components) {name : Text} (hname : IsFileName name) :
    Run.ending (writeHtmlFile title models (directory.join (.ofText name))) w =
        Run.ending (d.write directory (some name) none) w ∧
      Run.ending (writeMarkdownFile title models (directory.join (.ofText name))) w =
        Run.ending (d.write directory none (some name)) w := by
  have hparent := Path.parent_join_fileName hname directory
  obtain ⟨html, hhtml, h⟩ := Results.bind_eq_ok.mp hd
  obtain ⟨markdown, hmarkdown, h⟩ := Results.bind_eq_ok.mp h
  cases h
  constructor
  · rw [write_eq, targets, target_of_fileName hname]
    refine Eq.trans ?_ (ending_writeTarget htree hup hparent html).symm
    rw [writeHtmlFile, writeDocument, hhtml, hparent]
    rfl
  · rw [write_eq, targets, target_of_fileName hname]
    refine Eq.trans ?_ (ending_writeTarget htree hup hparent markdown).symm
    rw [writeMarkdownFile, writeDocument, hmarkdown, hparent]
    rfl

def badgeModel : Model where
  name := "Badge"
  fields := [{ name := "<b>", type := "Text", default := .text "|" }]

/-- A world with a directory above the one of a document. -/
def partlyMade : World where
  files := { nodes := [(["docs"], .directory), (["docs", "notes"], .file [0x61])] }

theorem ending_writeFile_eq_write_partlyMade :
    ∃ d, ofModels "Badges" [badgeModel] = .ok d ∧
      Run.ending (writeHtmlFile "Badges" [badgeModel]
          ((Path.ofText "docs/api/v1").join (.ofText "index.html"))) partlyMade =
        Run.ending (d.write (.ofText "docs/api/v1") (some "index.html") none) partlyMade ∧
      Run.ending (writeMarkdownFile "Badges" [badgeModel]
          ((Path.ofText "docs/api/v1").join (.ofText "index.html"))) partlyMade =
        Run.ending (d.write (.ofText "docs/api/v1") none (some "index.html")) partlyMade :=
  ⟨_, rfl, ending_writeFile_eq_write rfl (FileSystem.isTree_of_nodes rfl (by decide)) (by decide)
    (by decide)⟩

end DocumentPair

end SchemaDocs
