import SchemaDocs.Proofs.DocumentPair
import SchemaDocs.Proofs.FileSystem.Contents
/-!
# Both documents written

When both documents have been written, the Markdown document is in its file, since it is written
last.  The page is in its own file, unless the other document went there too: the two are never the
same text.

* `exists_writeTargets_eq_ok`: writing succeeds if no file is out of reach and every text has bytes;
* `holds_write_both`: what the two files hold.
-/

namespace SchemaDocs.DocumentPair

open SchemaDocs.Path (IsFileName)
open FileSystem (Holds)
open Text (SurrogateFree)

/-! ## The two texts -/

theorem head?_html {title : Text} {models : List Model} {d : DocumentPair}
    (hd : ofModels title models = .ok d) : d.html.head? = some (CodePoint.ofChar '<') := by
  obtain ⟨sections, record, data, -, -, -, rfl⟩ := ofModels_eq_ok hd
  rfl

theorem head?_markdown {title : Text} {models : List Model} {d : DocumentPair}
    (hd : ofModels title models = .ok d) : d.markdown.head? = some (CodePoint.ofChar '#') := by
  obtain ⟨sections, record, data, -, -, -, rfl⟩ := ofModels_eq_ok hd
  unfold Markdown.document
  cases sections.flatMap Markdown.modelEntry <;> rfl

theorem not_holds_both {title : Text} {models : List Model} {d : DocumentPair}
    (hd : ofModels title models = .ok d) {fs : FileSystem} {p : Path} (hhtml : fs.Holds p d.html)
    (hmarkdown : fs.Holds p d.markdown) : False := by
  obtain ⟨bytes, hencode, hread⟩ := hhtml
  obtain ⟨bytes', hencode', hread'⟩ := hmarkdown
  rw [hread] at hread'
  cases hread'
  have hfirst := Utf8.head?_of_encode hencode (head?_html hd) (by decide)
  have hsecond := Utf8.head?_of_encode hencode' (head?_markdown hd) (by decide)
  rw [hfirst] at hsecond
  exact absurd hsecond (by decide)

/-! ## Writing -/

theorem exists_writeFile_eq_ok {p : Path} {t : Text} {w : World} (hopen : w.files.CanOpen p)
    (ht : SurrogateFree t) : ∃ v, Run.writeFile p t w = .ok () v := by
  obtain ⟨opened, place, hopen⟩ := hopen
  obtain ⟨bytes, hbytes⟩ := Utf8.exists_encode_eq_ok.mpr ht
  unfold Run.writeFile
  rw [hopen]
  dsimp only
  rw [hbytes]
  exact ⟨_, rfl⟩

/-- Writing targets succeeds if their files can be opened and their texts can be encoded: what is
written does not get in the way of what comes after it. -/
theorem exists_writeTargets_eq_ok {targets : List (Path × Text)} {w : World}
    (h : ∀ t ∈ targets, w.files.CanOpen t.1 ∧ SurrogateFree t.2) :
    ∃ written v, writeTargets targets w = .ok written v := by
  induction targets generalizing w with
  | nil => exact ⟨[], w, rfl⟩
  | cons t rest ih =>
      obtain ⟨⟨hopen, hfree⟩, hrest⟩ := List.forall_mem_cons.mp h
      obtain ⟨u, hwrite⟩ := exists_writeFile_eq_ok hopen hfree
      obtain ⟨opened, place, hplace, -, hfiles⟩ := Run.writeFile_eq_ok hwrite
      obtain ⟨-, hdirectory, -, -⟩ := FileSystem.openForWriting_eq_ok hplace
      have hkept : ∀ t ∈ rest, u.files.CanOpen t.1 ∧ SurrogateFree t.2 := by
        rw [hfiles]
        exact fun t ht =>
          ⟨FileSystem.canOpen_set (hrest t ht).1 hdirectory _, (hrest t ht).2⟩
      let line : LogLine := ⟨.info, "Documentation generated! Check '" ++ t.1.text ++ "'"⟩
      obtain ⟨written, v, hothers⟩ := ih (w := { u with log := u.log ++ [line] }) hkept
      refine ⟨t.1 :: written, v, Run.bind_eq_ok.mpr ⟨(), u, hwrite, ?_⟩⟩
      exact Run.bind_eq_ok.mpr ⟨(), _, rfl, Run.bind_eq_ok.mpr ⟨written, v, hothers, rfl⟩⟩

theorem writeTargets_cons_eq_ok {path : Path} {document : Text} {rest : List (Path × Text)}
    {w v : World} {written : List Path}
    (h : writeTargets ((path, document) :: rest) w = .ok written v) :
    ∃ u x others, Run.writeFile path document w = .ok () u ∧ x.files = u.files ∧
      writeTargets rest x = .ok others v := by
  obtain ⟨_, u, hwrite, h⟩ := Run.bind_eq_ok.mp h
  obtain ⟨_, x, hlog, h⟩ := Run.bind_eq_ok.mp h
  cases hlog
  obtain ⟨others, _, hrest, h⟩ := Run.bind_eq_ok.mp h
  cases h
  refine ⟨u, _, others, hwrite, ?_, hrest⟩
  rfl

theorem target_of_fileName {name : Text} (hname : IsFileName name) (directory : Path)
    (document : Text) :
    target directory (some name) document = [(directory.join (.ofText name), document)] := by
  simp [target, hname.ne_nil]

theorem writeTargets_of_write {d : DocumentPair} {directory : Path}
    {htmlFile markdownFile : Option Text} {w v : World} {written : List Path}
    (h : d.write directory htmlFile markdownFile w = .ok written v) :
    ∃ u, writeTargets (d.targets directory htmlFile markdownFile) u = .ok written v := by
  obtain ⟨_, _, -, h⟩ := Run.bind_eq_ok.mp h
  obtain ⟨_, u, -, h⟩ := Run.bind_eq_ok.mp h
  exact ⟨u, h⟩

/-- After both documents have been written, the Markdown document is in its file.  The page is in
its file exactly if the disk tells the two file names apart. -/
theorem holds_write_both {title : Text} {models : List Model} {d : DocumentPair}
    (hd : ofModels title models = .ok d) {directory : Path} {htmlFile markdownFile : Text}
    (hhtml : IsFileName htmlFile) (hmarkdown : IsFileName markdownFile) {w v : World}
    {written : List Path}
    (h : d.write directory (some htmlFile) (some markdownFile) w = .ok written v) :
    v.files.Holds (directory.join (.ofText markdownFile)) d.markdown ∧
      (v.files.Holds (directory.join (.ofText htmlFile)) d.html ↔
        FileSystem.Name.listed htmlFile ≠ FileSystem.Name.listed markdownFile) := by
  obtain ⟨w, h⟩ := writeTargets_of_write h
  rw [targets, target_of_fileName hhtml, target_of_fileName hmarkdown] at h
  obtain ⟨u, x, _, hfirst, hlogged, h⟩ := writeTargets_cons_eq_ok h
  obtain ⟨u', x', _, hsecond, hlogged', h⟩ := writeTargets_cons_eq_ok h
  cases h
  obtain ⟨openedH, placeH, hopenH, hfreeH, hfilesH⟩ := Run.writeFile_eq_ok hfirst
  obtain ⟨openedM, placeM, hopenM, hfreeM, hfilesM⟩ := Run.writeFile_eq_ok hsecond
  obtain ⟨bytesH, hencodeH⟩ := Utf8.exists_encode_eq_ok.mpr hfreeH
  obtain ⟨bytesM, hencodeM⟩ := Utf8.exists_encode_eq_ok.mpr hfreeM
  rw [Utf8.bytesLeft_of_ok hencodeH] at hfilesH
  rw [Utf8.bytesLeft_of_ok hencodeM] at hfilesM
  have hresolveH := FileSystem.resolve_set hopenH bytesH
  rw [← hfilesH, ← hlogged] at hresolveH
  obtain ⟨-, hdirectoryM, hresolveM, -⟩ := FileSystem.openForWriting_eq_ok hopenM
  have hplaces := FileSystem.place_eq_iff hhtml hmarkdown hresolveH (by simp) hresolveM hdirectoryM
  have hread := FileSystem.read_set hresolveH hdirectoryM bytesM
  rw [← hfilesM, ← hlogged'] at hread
  have hholdsM : v.files.Holds (directory.join (.ofText markdownFile)) d.markdown := by
    rw [hlogged', hfilesM]
    exact FileSystem.holds_set hopenM hencodeM
  refine ⟨hholdsM, ?_⟩
  rw [Ne, ← hplaces]
  constructor
  · intro hholdsH hplace
    -- One place for both names: the file of the page holds the other document.
    rw [if_pos hplace] at hread
    exact not_holds_both hd hholdsH ⟨bytesM, hencodeM, hread⟩
  · intro hplace
    rw [if_neg hplace] at hread
    exact ⟨bytesH, hencodeH, hread⟩

end SchemaDocs.DocumentPair
