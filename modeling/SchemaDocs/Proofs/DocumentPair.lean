import SchemaDocs.Proofs.Document.Surrogates
import SchemaDocs.Proofs.Html.Layout
import SchemaDocs.Proofs.Run
/-!
# Writing the documents

Everything up to the first document that is written keeps the files.  When writing fails, the first
document is the only one that can have been written, and if its text has no bytes its file is left
empty.

* `surrogateFree_of_mem_targets`: if one of the documents can be encoded, so can the other one;
* `sameFiles_writeTargets_iff`: a failure keeps the files unless it changes the first target.
-/

namespace SchemaDocs.DocumentPair

open FileSystem (SameFiles)
open Run (Keeps)
open Text (SurrogateFree)

/-! ## Before writing -/

section Looking

variable {R : FileSystem → FileSystem → Prop} [Std.Refl R] [IsTrans FileSystem R]

theorem keeps_build (title : Text) (raw : Value) : Keeps R (build title raw) := by
  have hmodels : Keeps R (Schema.models raw) :=
    Run.keeps_bind (Run.keeps_ofExcept _ _) fun _ =>
      Run.keeps_bind (Run.keeps_log _ _) fun _ => Run.keeps_pure _
  exact Run.keeps_bind hmodels fun _ => Run.keeps_ofExcept _ _

end Looking

theorem keeps_prepareDirectory (directory : Path) :
    Keeps SameFiles (prepareDirectory directory) := by
  refine Run.keeps_bind (Run.keeps_ask _) fun found => ?_
  cases found with
  | true => exact Run.keeps_pure ()
  | false =>
      exact Run.keeps_bind (Run.keeps_makeDirectories directory false) fun _ => Run.keeps_log _ _

theorem keeps_prepareTargets (targets : List (Path × Text)) :
    Keeps SameFiles (prepareTargets targets) := by
  induction targets with
  | nil => exact Run.keeps_pure ()
  | cons t rest ih => exact Run.keeps_bind (Run.keeps_makeDirectories t.1.parent true) fun _ => ih

/-! ## Targets -/

theorem target_eq_nil_or_singleton (directory : Path) (name : Option Text) (document : Text) :
    target directory name document = [] ∨
      ∃ path, target directory name document = [(path, document)] := by
  unfold target
  split
  · exact .inl rfl
  · split
    · exact .inl rfl
    · exact .inr ⟨_, rfl⟩

theorem length_targets_le (d : DocumentPair) (directory : Path)
    (htmlFile markdownFile : Option Text) :
    (d.targets directory htmlFile markdownFile).length ≤ 2 := by
  unfold targets
  rcases target_eq_nil_or_singleton directory htmlFile d.html with h | ⟨p, h⟩ <;>
    rcases target_eq_nil_or_singleton directory markdownFile d.markdown with h' | ⟨q, h'⟩ <;>
    simp [h, h']

theorem text_of_mem_targets {d : DocumentPair} {directory : Path}
    {htmlFile markdownFile : Option Text} {t : Path × Text}
    (ht : t ∈ d.targets directory htmlFile markdownFile) :
    t.2 = d.html ∨ t.2 = d.markdown := by
  have hpart : ∀ {name document}, t ∈ target directory name document → t.2 = document := by
    intro name document ht
    unfold target at ht
    split at ht
    · exact absurd ht List.not_mem_nil
    · split at ht
      · exact absurd ht List.not_mem_nil
      · rw [List.mem_singleton.mp ht]
  exact (List.mem_append.mp ht).imp hpart hpart

theorem ofModels_eq_ok {title : Text} {models : List Model} {d : DocumentPair}
    (h : ofModels title models = .ok d) :
    ∃ sections record data, ModelSection.listOfModels models = .ok sections ∧
      exportRecord title sections = .ok record ∧ record.toJson? = .ok data ∧
      d = ⟨models, Html.pageText (Html.page title sections data),
        Markdown.document title sections⟩ := by
  obtain ⟨html, hpage, h⟩ := Results.bind_eq_ok.mp h
  obtain ⟨markdown, hmarkdown, h⟩ := Results.bind_eq_ok.mp h
  cases h
  obtain ⟨sections, record, data, hsections, hrecord, hdata, rfl⟩ :=
    Html.exists_record_of_render hpage
  obtain ⟨_, hsame, rfl⟩ := Results.map_eq_ok.mp hmarkdown
  rw [hsections] at hsame
  cases hsame
  exact ⟨sections, record, data, hsections, hrecord, hdata, rfl⟩

theorem surrogateFree_html_iff {title : Text} {models : List Model} {d : DocumentPair}
    (hd : ofModels title models = .ok d) : SurrogateFree d.html ↔ SurrogateFree d.markdown := by
  obtain ⟨sections, record, data, hsections, -, hdata, rfl⟩ := ofModels_eq_ok hd
  have hliterals := Value.realLiterals_of_toJson? _ hdata
  exact ⟨surrogateFree_markdown, surrogateFree_html hsections hliterals⟩

theorem surrogateFree_of_mem_targets {title : Text} {models : List Model} {d : DocumentPair}
    (hd : ofModels title models = .ok d) {directory : Path} {htmlFile markdownFile : Option Text}
    {t u : Path × Text} (ht : t ∈ d.targets directory htmlFile markdownFile)
    (hu : u ∈ d.targets directory htmlFile markdownFile) (hfree : SurrogateFree t.2) :
    SurrogateFree u.2 := by
  have hiff := surrogateFree_html_iff hd
  rcases text_of_mem_targets ht with htext | htext <;>
    rcases text_of_mem_targets hu with hutext | hutext <;>
    rw [htext] at hfree <;> rw [hutext]
  · exact hfree
  · exact hiff.mp hfree
  · exact hiff.mpr hfree
  · exact hfree

theorem targets_pairwise {title : Text} {models : List Model} {d : DocumentPair}
    (hd : ofModels title models = .ok d) (directory : Path) (htmlFile markdownFile : Option Text) :
    (d.targets directory htmlFile markdownFile).Pairwise fun s t =>
      SurrogateFree s.2 → SurrogateFree t.2 :=
  List.pairwise_of_forall_mem_list fun _ hs _ ht => surrogateFree_of_mem_targets hd hs ht

/-! ## Writing -/

/-- Whether writing the first target changes a file: the target can be opened, and what is there is
no file that holds already what writing leaves. -/
def ChangesFirst (fs : FileSystem) : List (Path × Text) → Prop
  | [] => False
  | (path, document) :: _ => ∃ place found, fs.resolve path = .ok (place, found) ∧
      found ≠ some .directory ∧ found ≠ some (.file (Utf8.bytesLeft document))

theorem changesFirst_of_ok {fs opened : FileSystem} {path : Path} {place : Location}
    {document : Text} {rest : List (Path × Text)}
    (hopen : fs.openForWriting path = .ok (opened, place)) :
    ChangesFirst fs ((path, document) :: rest) ↔
      fs.find? place ≠ some (.file (Utf8.bytesLeft document)) := by
  obtain ⟨-, hdirectory, hresolve, -⟩ := FileSystem.openForWriting_eq_ok hopen
  constructor
  · rintro ⟨place', found, hplace, -, hfound⟩
    rw [hresolve] at hplace
    cases hplace
    exact hfound
  · exact fun h => ⟨place, _, hresolve, hdirectory, h⟩

theorem not_changesFirst_of_error {fs : FileSystem} {path : Path} {error : FileError}
    {document : Text} {rest : List (Path × Text)} (hopen : fs.openForWriting path = .error error) :
    ¬ ChangesFirst fs ((path, document) :: rest) := by
  rintro ⟨place, found, hresolve, hfound, -⟩
  exact hfound (FileSystem.openForWriting_eq_error hopen hresolve)

theorem sameFiles_set_iff_not_changesFirst {fs opened : FileSystem} {path : Path}
    {place : Location} {document : Text} {rest : List (Path × Text)}
    (hopen : fs.openForWriting path = .ok (opened, place)) :
    SameFiles fs (fs.set place (.file (Utf8.bytesLeft document))) ↔
      ¬ ChangesFirst fs ((path, document) :: rest) := by
  obtain ⟨hplace, -, -, -⟩ := FileSystem.openForWriting_eq_ok hopen
  rw [changesFirst_of_ok hopen, not_not, FileSystem.sameFiles_set_file_iff hplace]

theorem writeTargets_cons_eq_error {path : Path} {document : Text} {rest : List (Path × Text)}
    {w v : World} {failure : Failure}
    (h : writeTargets ((path, document) :: rest) w = .error failure v) :
    Run.writeFile path document w = .error failure v ∨
      ∃ u x, Run.writeFile path document w = .ok () u ∧ x.files = u.files ∧
        writeTargets rest x = .error failure v := by
  rcases Run.bind_eq_error.mp h with hwrite | ⟨_, u, hwrite, h⟩
  · exact .inl hwrite
  · rcases Run.bind_eq_error.mp h with hlog | ⟨_, x, hlog, h⟩
    · cases hlog
    · cases hlog
      rcases Run.bind_eq_error.mp h with hrest | ⟨_, _, -, hend⟩
      · refine .inr ⟨u, _, hwrite, ?_, hrest⟩
        rfl
      · cases hend

theorem files_of_writeTargets_left {targets : List (Path × Text)} (hlength : targets.length ≤ 1)
    (hencode : ∀ t ∈ targets, SurrogateFree t.2) {w v : World} {failure : Failure}
    (h : writeTargets targets w = .error failure v) : v.files = w.files := by
  cases targets with
  | nil => cases h
  | cons t rest =>
      obtain rfl : rest = [] := by simpa using hlength
      rcases writeTargets_cons_eq_error h with hwrite | ⟨_, _, -, -, hrest⟩
      · rcases Run.writeFile_eq_error hwrite with ⟨error, -, rfl⟩ | ⟨_, _, -, hfault, -⟩
        · rfl
        · exact absurd (hencode t List.mem_cons_self) hfault
      · cases hrest

theorem sameFiles_writeTargets_iff {targets : List (Path × Text)} (hlength : targets.length ≤ 2)
    (hencode : targets.Pairwise fun s t => SurrogateFree s.2 → SurrogateFree t.2) {w v : World}
    {failure : Failure} (h : writeTargets targets w = .error failure v) :
    SameFiles w.files v.files ↔ ¬ ChangesFirst w.files targets := by
  cases targets with
  | nil => cases h
  | cons first rest =>
      obtain ⟨path, document⟩ := first
      rcases writeTargets_cons_eq_error h with hwrite | ⟨u, x, hwrite, hlogged, hrest⟩
      · rcases Run.writeFile_eq_error hwrite with
          ⟨error, hopen, rfl⟩ | ⟨opened, place, hopen, -, hfiles⟩
        · exact iff_of_true (.refl _) (not_changesFirst_of_error hopen)
        · rw [hfiles]
          exact sameFiles_set_iff_not_changesFirst hopen
      · obtain ⟨opened, place, hopen, hfree, hfiles⟩ := Run.writeFile_eq_ok hwrite
        -- The first text has bytes, so the other one has them too.
        have hleft : ∀ t ∈ rest, SurrogateFree t.2 := fun t ht =>
          (List.pairwise_cons.mp hencode).1 t ht hfree
        have hshort : rest.length ≤ 1 := by
          simpa using hlength
        rw [files_of_writeTargets_left hshort hleft hrest, hlogged, hfiles]
        exact sameFiles_set_iff_not_changesFirst hopen

end SchemaDocs.DocumentPair
