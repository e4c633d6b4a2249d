import SchemaDocs.Path
import SchemaDocs.Proofs.Text.Split
/-!
# File names

A file name is a text that spells a path of one component, which is the text itself.  A text that is
the last component of the path that it spells is a file name, unless it is empty.
-/

namespace SchemaDocs.Path

/-- Whether a text spells a relative path with the text as its only component. -/
def IsFileName (t : Text) : Prop :=
  Path.ofText t = ⟨[], [t]⟩

instance (t : Text) : Decidable (IsFileName t) :=
  inferInstanceAs (Decidable (_ = _))

theorem IsFileName.ne_nil {t : Text} (h : IsFileName t) : t ≠ [] := by
  rintro rfl
  cases h

theorem rootOf_of_notMem {t : Text} (ht : ('/' : CodePoint) ∉ t) : rootOf t = [] := by
  cases t with
  | nil => rfl
  | cons c rest =>
      rw [List.mem_cons, not_or] at ht
      have hc : (c == CodePoint.ofChar '/') = false := by simpa using Ne.symm ht.1
      unfold rootOf
      rw [List.takeWhile_cons_of_neg (by simp [hc])]
      rfl

theorem isFileName_of_name_eq {t : Text} (hne : t ≠ []) (h : (ofText t).name = t) :
    IsFileName t := by
  have hmem : t ∈ (ofText t).components := by
    cases hlast : (ofText t).components.getLast? with
    | none =>
        rw [name, hlast] at h
        exact absurd h.symm hne
    | some last =>
        rw [name, hlast] at h
        have hlast := List.mem_of_getLast? hlast
        rwa [show last = t from h] at hlast
  obtain ⟨hpart, hkept⟩ := List.mem_filter.mp hmem
  have hslash : ('/' : CodePoint) ∉ t := Text.notMem_of_mem_split hpart
  have hcomponents : (ofText t).components = [t] := by
    rw [ofText, Text.split_of_notMem hslash]
    simp only [List.filter_cons, hkept, if_true, List.filter_nil]
  have hroot : (ofText t).root = [] := rootOf_of_notMem hslash
  rw [IsFileName, ← hroot, ← hcomponents]

theorem isFileName_iff {t : Text} : IsFileName t ↔ t ≠ [] ∧ ('/' : CodePoint) ∉ t ∧ t ≠ "." := by
  constructor
  · intro h
    have hmem : t ∈ (ofText t).components := by
      rw [show ofText t = ⟨[], [t]⟩ from h]
      exact List.mem_singleton_self t
    obtain ⟨hpart, hkept⟩ := List.mem_filter.mp hmem
    rw [Bool.and_eq_true, bne_iff_ne] at hkept
    exact ⟨h.ne_nil, Text.notMem_of_mem_split hpart, hkept.2⟩
  · rintro ⟨hne, hslash, hdot⟩
    have hkept : (!t.isEmpty && t != ("." : Text)) = true := by simp [hne, hdot]
    rw [IsFileName, ofText, rootOf_of_notMem hslash, Text.split_of_notMem hslash]
    simp only [List.filter_cons, hkept, if_true, List.filter_nil]

theorem join_fileName {t : Text} (h : IsFileName t) (directory : Path) :
    directory.join (.ofText t) = ⟨directory.root, directory.components ++ [t]⟩ := by
  rw [show ofText t = ⟨[], [t]⟩ from h]
  rfl

/-- As paths go, what is called by a file name stands in the directory that it is joined to. -/
theorem parent_join_fileName {t : Text} (h : IsFileName t) (directory : Path) :
    (directory.join (.ofText t)).parent = directory := by
  rw [join_fileName h, parent, List.dropLast_concat]

theorem name_join_fileName {t : Text} (h : IsFileName t) (directory : Path) :
    (directory.join (.ofText t)).name = t := by
  rw [join_fileName h, name, List.getLast?_concat, Option.getD_some]

end SchemaDocs.Path
