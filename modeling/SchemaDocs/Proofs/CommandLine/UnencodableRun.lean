import SchemaDocs.Proofs.CommandLine.RunStages
import SchemaDocs.Proofs.RunFailures
import SchemaDocs.Proofs.WriteEffect
/-!
# Documents without bytes

Both documents show the same texts, so there is a surrogate in both of them or in neither.  A text
with a surrogate has no bytes, which is found out when its file is written and never before.  So it
is always the first document that a run fails for, and no other one was written by then.

* `DocumentPair.writeTargets_eq_unencodable`: which target it is that has no bytes;
* `Invocation.run_eq_unencodable`: what a run has done when it fails for a text without bytes;
* `unencodable_both`: the two documents, and the runs that write both.
-/

namespace SchemaDocs

open Run (FailsOnly failsOnly_bind failsOnly_log failsOnly_ofExcept failsOnly_pure)
open Text (SurrogateFree)

theorem Text.not_surrogateFree_iff {t : Text} :
    ¬ SurrogateFree t ↔ ∃ c ∈ t, c.isSurrogate = true := by
  simp [SurrogateFree]

theorem Utf8.exists_encode_eq_error {t : Text} :
    (∃ fault, encode t = .error fault) ↔ ∃ c ∈ t, c.isSurrogate = true := by
  rw [← Text.not_surrogateFree_iff, ← exists_encode_eq_ok]
  cases encode t <;> simp

def Failure.isUnencodable : Failure → Bool
  | .unencodable _ => true
  | _ => false

def Run.Encodes {α : Type} (m : Run α) : Prop :=
  FailsOnly (fun failure => failure.isUnencodable = false) m

/-! ## Before writing -/

theorem Settings.encodes_load (file : SettingsFile) : Run.Encodes (load file) := by
  refine failsOnly_load (fun _ => rfl) (fun _ => rfl) (fun _ _ h => ?_) file
  rcases ofText_eq_error h with rfl | ⟨_, rfl⟩ | ⟨_, rfl⟩ <;> rfl

theorem Schema.encodes_load (p : Path) : Run.Encodes (load p) := by
  refine failsOnly_load (fun _ => rfl) (fun _ => rfl) (fun _ _ h => ?_) (fun _ => rfl) p
  rcases ofText_eq_error h with ⟨_, _, rfl⟩ | ⟨_, rfl⟩ | rfl <;> rfl

theorem DocumentPair.encodes_build (title : Text) (raw : Value) :
    Run.Encodes (build title raw) := by
  have hmodels : Run.Encodes (Schema.models raw) :=
    failsOnly_bind (failsOnly_ofExcept fun _ _ => rfl) fun _ _ _ _ =>
      failsOnly_bind (failsOnly_log _ _) fun _ _ _ _ => failsOnly_pure _
  exact failsOnly_bind hmodels fun _ _ _ _ => failsOnly_ofExcept fun _ _ => rfl

theorem CommandLine.Invocation.encodes_prepare (i : Invocation) : Run.Encodes i.prepare :=
  failsOnly_bind (Settings.encodes_load _) fun _ _ _ _ =>
    failsOnly_bind (Schema.encodes_load _) fun _ _ _ _ =>
    failsOnly_bind (DocumentPair.encodes_build _ _) fun _ _ _ _ =>
    failsOnly_bind (DocumentPair.failsOnly_prepareDirectory (fun _ => rfl) _) fun _ _ _ _ =>
    failsOnly_bind (DocumentPair.failsOnly_prepareTargets (fun _ => rfl) _) fun _ _ _ _ =>
    failsOnly_pure _

/-! ## Writing -/

theorem Run.writeFile_eq_unencodable {p : Path} {t : Text} {w v : World} {fault : Utf8.EncodeFault}
    (h : writeFile p t w = .error (.unencodable fault) v) :
    Utf8.encode t = .error fault ∧ v.files.read p = .ok [] ∧ v.log = w.log := by
  unfold writeFile at h
  split at h
  · cases h
  · next hopen =>
      split at h
      · next hfault =>
          cases h
          have hopened := FileSystem.read_of_resolve (FileSystem.resolve_set hopen [])
          obtain ⟨-, -, -, rfl⟩ := FileSystem.openForWriting_eq_ok hopen
          exact ⟨hfault, hopened, rfl⟩
      · cases h

namespace DocumentPair

variable {targets : List (Path × Text)} {w v : World} {fault : Utf8.EncodeFault}

theorem writeTargets_ne_unencodable (hfree : ∀ t ∈ targets, SurrogateFree t.2) :
    writeTargets targets w ≠ .error (.unencodable fault) v := by
  induction targets generalizing w with
  | nil =>
      intro h
      cases h
  | cons t rest ih =>
      obtain ⟨ht, hrest⟩ := List.forall_mem_cons.mp hfree
      intro h
      rcases writeTargets_cons_eq_error h with hwrite | ⟨_, _, -, -, hlater⟩
      · obtain ⟨bytes, hbytes⟩ := Utf8.exists_encode_eq_ok.mpr ht
        rw [(Run.writeFile_eq_unencodable hwrite).1] at hbytes
        cases hbytes
      · exact ih hrest hlater

/-- If no document without bytes comes after one that has bytes, writing can fail for the first one
only, and leaves its file empty. -/
theorem writeTargets_eq_unencodable
    (hencode : targets.Pairwise fun s t => SurrogateFree s.2 → SurrogateFree t.2)
    (h : writeTargets targets w = .error (.unencodable fault) v) :
    ∃ t ∈ targets.head?, Utf8.encode t.2 = .error fault ∧ v.files.read t.1 = .ok [] ∧
      v.log = w.log := by
  cases targets with
  | nil => cases h
  | cons t rest =>
      rcases writeTargets_cons_eq_error h with hwrite | ⟨_, _, hwrite, -, hlater⟩
      · exact ⟨t, rfl, Run.writeFile_eq_unencodable hwrite⟩
      · obtain ⟨_, _, -, hfree, -⟩ := Run.writeFile_eq_ok hwrite
        exact absurd hlater (writeTargets_ne_unencodable fun s hs =>
          (List.pairwise_cons.mp hencode).1 s hs hfree)

end DocumentPair

namespace CommandLine

variable {i : Invocation} {w u v : World}

/-! ## Runs -/

theorem Invocation.prepare_eq_ok_targets {targets : List (Path × Text)}
    (h : i.prepare w = .ok targets u) :
    ∃ settings d, i.Builds w settings d ∧ targets = i.targets settings d ∧
      ∃ made, u.log = (i.ready settings d w).log ++ made ∧
        (made = [] ∨ made = [DocumentPair.createdLine]) := by
  obtain ⟨settings, w₁, hsettings, h⟩ := Run.bind_eq_ok.mp h
  obtain ⟨raw, w₂, hraw, h⟩ := Run.bind_eq_ok.mp h
  obtain ⟨d, w₃, hbuild, h⟩ := Run.bind_eq_ok.mp h
  obtain ⟨_, w₄, hdirectory, h⟩ := Run.bind_eq_ok.mp h
  obtain ⟨_, w₅, hparents, h⟩ := Run.bind_eq_ok.mp h
  cases h
  have hbuilds : i.Builds w settings d := ⟨raw, w₁, w₂, w₃, hsettings, hraw, hbuild⟩
  have hready : w₃ = i.ready settings d w := eq_ready_of_build hsettings hraw hbuild
  have hall : DocumentPair.prepareAll (i.directory settings) _ w₃ = .ok () u :=
    Run.bind_eq_ok.mpr ⟨(), w₄, hdirectory, hparents⟩
  refine ⟨settings, d, hbuilds, targets_eq hbuilds.fileNames, ?_⟩
  rcases DocumentPair.prepareAll_cases _ _ w₃ with ⟨-, x, hrun, hlog⟩ | ⟨-, _, _, hrun, -⟩
  · cases hall.symm.trans hrun
    rw [← hready]
    by_cases hmakes : DocumentPair.MakesDirectory w₃.files (i.directory settings)
    · exact ⟨_, hlog.1 hmakes, .inr rfl⟩
    · exact ⟨[], by rw [List.append_nil, hlog.2 hmakes], .inl rfl⟩
  · cases hall.symm.trans hrun

theorem Invocation.writtenLine_notMem_ready {settings : Settings} {d : DocumentPair}
    {files : FileSystem} {made : List LogLine}
    (hmade : made = [] ∨ made = [DocumentPair.createdLine]) (p : Path) :
    DocumentPair.writtenLine p ∉ (i.ready settings d { files }).log ++ made := by
  intro hmem
  have hstart : ∀ line, DocumentPair.writtenLine p = line → "Docu" = line.text.take 4 := by
    rintro line rfl
    rfl
  rcases List.mem_append.mp hmem with hmem | hmem
  · rcases List.mem_cons.mp hmem with heq | hmem
    · have hsearch : ("Docu" : Text) = "Look" := hstart _ heq
      exact absurd hsearch (by decide)
    · have hcount : ("Docu" : Text) = "norm" := hstart _ (List.mem_singleton.mp hmem)
      exact absurd hcount (by decide)
  · rcases hmade with rfl | rfl
    · exact absurd hmem List.not_mem_nil
    · have hcreated : ("Docu" : Text) = "Docs" := hstart _ (List.mem_singleton.mp hmem)
      exact absurd hcreated (by decide)

/-- A run that fails for a text without bytes fails for its first document, whose file is left
empty, and has written none. -/
theorem Invocation.run_eq_unencodable {files : FileSystem} {fault : Utf8.EncodeFault}
    (h : i.run { files } = .error (.unencodable fault) v) :
    ∃ settings d, i.Builds { files } settings d ∧ ∃ t ∈ (i.targets settings d).head?,
      Utf8.encode t.2 = .error fault ∧ v.files.read t.1 = .ok [] ∧
        ∀ p, DocumentPair.writtenLine p ∉ v.log := by
  rw [Invocation.run_eq] at h
  rcases Run.bind_eq_error.mp h with hprepare | ⟨targets, u, hprepare, h⟩
  · cases i.encodes_prepare _ _ _ hprepare
  · obtain ⟨settings, d, hbuilds, rfl, made, hlog, hmade⟩ :=
      Invocation.prepare_eq_ok_targets hprepare
    obtain ⟨title, models, hd⟩ := hbuilds.ofModels
    have hencode := DocumentPair.targets_pairwise hd (i.directory settings)
      (if i.command.wantsHtml then some settings.htmlFile else none)
      (if i.command.wantsMarkdown then some settings.markdownFile else none)
    rw [targets_eq hbuilds.fileNames] at hencode
    rcases Run.bind_eq_error.mp h with hwrite | ⟨_, _, -, hend⟩
    · obtain ⟨t, ht, hfault, hempty, hsame⟩ :=
        DocumentPair.writeTargets_eq_unencodable hencode hwrite
      refine ⟨settings, d, hbuilds, t, ht, hfault, hempty, fun p => ?_⟩
      rw [hsame, hlog]
      exact writtenLine_notMem_ready hmade p
    · cases hend

/-- There is a surrogate in both documents of models or in neither, and a text with one is a text
without bytes.  So a run for both documents that fails for a text without bytes fails for the page:
the file of the page is left empty, and neither document was written. -/
theorem unencodable_both :
    (∀ {title : Text} {models : List Model} {html markdown : Text},
      Html.render title models = .ok html → Markdown.render title models = .ok markdown →
        ((∃ c ∈ html, c.isSurrogate = true) ↔ ∃ c ∈ markdown, c.isSurrogate = true) ∧
          ((∃ fault, Utf8.encode html = .error fault) ↔ ∃ c ∈ html, c.isSurrogate = true)) ∧
    ∀ {i : Invocation} {files : FileSystem} {fault : Utf8.EncodeFault} {v : World},
      i.command = .both → i.run { files } = .error (.unencodable fault) v →
        ∃ settings d, i.Builds { files } settings d ∧ Utf8.encode d.html = .error fault ∧
          v.files.read (i.htmlPath settings) = .ok [] ∧
          ∀ p, DocumentPair.writtenLine p ∉ v.log := by
  constructor
  · intro title models html markdown hhtml hmarkdown
    have hd : DocumentPair.ofModels title models = .ok ⟨models, html, markdown⟩ :=
      Results.bind_eq_ok.mpr ⟨html, hhtml, Results.bind_eq_ok.mpr ⟨markdown, hmarkdown, rfl⟩⟩
    refine ⟨?_, Utf8.exists_encode_eq_error⟩
    rw [← Text.not_surrogateFree_iff, ← Text.not_surrogateFree_iff,
      DocumentPair.surrogateFree_html_iff hd]
  · intro i files fault v hboth hrun
    obtain ⟨settings, d, hbuilds, t, ht, hfault, hempty, hlog⟩ :=
      Invocation.run_eq_unencodable hrun
    rw [Invocation.targets, hboth] at ht
    cases ht
    exact ⟨settings, d, hbuilds, hfault, hempty, hlog⟩

/-- A title of one surrogate, and an invocation with this title. -/
def surrogateTitle : Text :=
  [.ofNatD 0xDC80]

def surrogateInvocation : Invocation where
  verbose := false
  command := .both
  options := { title := some surrogateTitle }

theorem exists_run_surrogateInvocation : ∃ fault v,
    surrogateInvocation.run { files := sameNameFiles } = .error (.unencodable fault) v := by
  have hfails : ∀ {result : EStateM.Result Failure World Unit},
      (match result with
        | .ok _ _ => false
        | .error failure _ => failure.isUnencodable) = true →
      ∃ fault v, result = .error (.unencodable fault) v := by
    intro result h
    cases result with
    | ok _ v => cases h
    | error failure v =>
        cases failure with
        | unencodable fault => exact ⟨fault, v, rfl⟩
        | _ => cases h
  exact hfails (by decide +kernel)

theorem unencodable_both_surrogateTitle :
    (∃ html markdown, Html.render surrogateTitle [] = .ok html ∧
      Markdown.render surrogateTitle [] = .ok markdown ∧
        ((∃ c ∈ html, c.isSurrogate = true) ↔ ∃ c ∈ markdown, c.isSurrogate = true) ∧
          ((∃ fault, Utf8.encode html = .error fault) ↔ ∃ c ∈ html, c.isSurrogate = true)) ∧
    ∃ fault v, surrogateInvocation.run { files := sameNameFiles } = .error (.unencodable fault) v ∧
      ∃ settings d, surrogateInvocation.Builds { files := sameNameFiles } settings d ∧
        Utf8.encode d.html = .error fault ∧
        v.files.read (surrogateInvocation.htmlPath settings) = .ok [] ∧
        ∀ p, DocumentPair.writtenLine p ∉ v.log := by
  obtain ⟨html, hhtml⟩ : ∃ html, Html.render surrogateTitle [] = .ok html := ⟨_, rfl⟩
  obtain ⟨markdown, hmarkdown⟩ : ∃ markdown, Markdown.render surrogateTitle [] = .ok markdown :=
    ⟨_, rfl⟩
  obtain ⟨fault, v, hrun⟩ := exists_run_surrogateInvocation
  exact ⟨⟨html, markdown, hhtml, hmarkdown, unencodable_both.1 hhtml hmarkdown⟩,
    fault, v, hrun, unencodable_both.2 rfl hrun⟩

end CommandLine

end SchemaDocs
