import SchemaDocs.Proofs.CommandLine.FailedRun
import SchemaDocs.Proofs.FileSystem.Tree
/-!
# Trees that runs leave

Whatever is made goes into a directory that is there, and no directory turns into a file.  So every
step of a run leaves a tree of files if it finds one, and so does every command line, however it
ends.

* `LeavesTree`: the relation that every step keeps;
* `leavesTree_writeDocument`, `isTree_execute`: what single documents and command lines leave.
-/

namespace SchemaDocs

def LeavesTree (before after : FileSystem) : Prop :=
  before.IsTree → after.IsTree

instance : Std.Refl LeavesTree := ⟨fun _ h => h⟩

instance : IsTrans FileSystem LeavesTree := ⟨fun _ _ _ h₁ h₂ h => h₂ (h₁ h)⟩

namespace Run

theorem leavesTree_makeDirectories (p : Path) (mayExist : Bool) :
    Keeps LeavesTree (makeDirectories p mayExist) :=
  keeps_change fun _ h => h.makeDirectories p mayExist

theorem leavesTree_writeFile (p : Path) (t : Text) : Keeps LeavesTree (writeFile p t) := by
  intro w htree
  unfold final writeFile
  cases hopen : w.files.openForWriting p with
  | error error => exact htree
  | ok result =>
      obtain ⟨opened, place⟩ := result
      obtain ⟨-, -, -, rfl⟩ := FileSystem.openForWriting_eq_ok hopen
      cases Utf8.encode t with
      | error fault => exact htree.openForWriting hopen []
      | ok bytes =>
          dsimp only
          rw [FileSystem.set_set]
          exact htree.openForWriting hopen bytes

end Run

namespace DocumentPair

theorem leavesTree_prepareTargets (targets : List (Path × Text)) :
    Run.Keeps LeavesTree (prepareTargets targets) := by
  induction targets with
  | nil => exact Run.keeps_pure ()
  | cons t rest ih => exact Run.keeps_bind (Run.leavesTree_makeDirectories _ true) fun _ => ih

theorem leavesTree_writeTargets (targets : List (Path × Text)) :
    Run.Keeps LeavesTree (writeTargets targets) := by
  induction targets with
  | nil => exact Run.keeps_pure []
  | cons t rest ih =>
      exact Run.keeps_bind (Run.leavesTree_writeFile t.1 t.2) fun _ =>
        Run.keeps_bind (Run.keeps_log _ _) fun _ => Run.keeps_bind ih fun _ => Run.keeps_pure _

theorem leavesTree_write (d : DocumentPair) (directory : Path)
    (htmlFile markdownFile : Option Text) :
    Run.Keeps LeavesTree (d.write directory htmlFile markdownFile) := by
  refine Run.keeps_bind (Run.keeps_bind (Run.keeps_ask _) fun found => ?_) fun _ =>
    Run.keeps_bind (leavesTree_prepareTargets _) fun _ => leavesTree_writeTargets _
  cases found with
  | true => exact Run.keeps_pure ()
  | false =>
      exact Run.keeps_bind (Run.leavesTree_makeDirectories directory false) fun _ =>
        Run.keeps_log _ _

end DocumentPair

theorem leavesTree_writeDocument (render : List Model → Except RenderFault Text)
    (models : List Model) (output : Path) :
    Run.Keeps LeavesTree (writeDocument render models output) :=
  Run.keeps_bind (Run.keeps_ofExcept _ _) fun _ =>
    Run.keeps_bind (Run.leavesTree_makeDirectories _ true) fun _ => Run.leavesTree_writeFile _ _

/-! ## Command lines -/

namespace CommandLine

theorem Invocation.leavesTree_run (i : Invocation) : Run.Keeps LeavesTree i.run :=
  Run.keeps_bind (keeps_loadSettings _) fun _ =>
    Run.keeps_bind (keeps_loadSchema _) fun raw =>
    Run.keeps_bind (DocumentPair.keeps_build _ raw) fun d =>
    Run.keeps_bind (d.leavesTree_write _ _ _) fun _ => Run.keeps_pure _

/-- Every command line leaves a tree of files as one. -/
theorem isTree_execute (arguments : List Text) {files : FileSystem} (h : files.IsTree) :
    (execute arguments files).2.IsTree := by
  unfold execute
  split
  · exact h
  · exact h
  · next i _ =>
      unfold Invocation.execute
      cases hrun : i.run { files } with
      | ok _ w => exact Run.keeps_of_ok i.leavesTree_run hrun h
      | error failure w =>
          have hleft := Run.keeps_of_error i.leavesTree_run hrun h
          dsimp only
          split
          · exact hleft
          · exact hleft

end CommandLine

end SchemaDocs
