import Mathlib.Algebra.GroupWithZero.Nat
import SchemaDocs.Text.Basic
/-!
# Splitting and joining text

Joining the parts of a text with another text replaces the separator, a separator between two texts
splits them, and every part stands somewhere in the text it comes from.
-/

namespace SchemaDocs

namespace Text

/-! ## Joining -/

theorem join_cons {parts : List Text} (separator t : Text) (hparts : parts ≠ []) :
    join separator (t :: parts) = t ++ separator ++ join separator parts := by
  cases parts with
  | nil => exact absurd rfl hparts
  | cons u rest => rfl

theorem join_cons_append (separator t : Text) (parts others : List Text) :
    join separator (t :: (parts ++ others)) =
      join separator (t :: parts) ++ others.flatMap fun u => separator ++ u := by
  induction parts generalizing t with
  | nil =>
      induction others generalizing t with
      | nil => exact (List.append_nil t).symm
      | cons u rest ih =>
          rw [List.nil_append, join_cons _ _ (List.cons_ne_nil u rest), List.flatMap_cons]
          have hrest := ih u
          rw [List.nil_append] at hrest
          rw [hrest]
          simp only [join, List.append_assoc]
  | cons u rest ih =>
      rw [List.cons_append, join_cons _ _ (List.cons_ne_nil _ _), ih,
        join_cons _ _ (List.cons_ne_nil _ _)]
      simp only [List.append_assoc]

theorem count_join {c : CodePoint} {separator : Text} (hc : c ∉ separator) (parts : List Text) :
    (join separator parts).count c = (parts.map (List.count c)).sum := by
  induction parts with
  | nil => rfl
  | cons t rest ih =>
      cases rest with
      | nil => simp [join]
      | cons u rest =>
          rw [join_cons _ _ (by simp), List.count_append, List.count_append,
            List.count_eq_zero.mpr hc, ih, Nat.add_zero]
          simp only [List.map_cons, List.sum_cons]

/-! ## Splitting -/

theorem split_ne_nil (separator : CodePoint) (t : Text) : split separator t ≠ [] := by
  cases t with
  | nil => simp [split]
  | cons c rest =>
      rw [split]
      split
      · simp
      · split <;> simp

theorem split_cons_self (separator : CodePoint) (t : Text) :
    split separator (separator :: t) = [] :: split separator t := by
  rw [split, if_pos rfl]

theorem split_cons_of_ne {separator c : CodePoint} (t : Text) (hc : c ≠ separator) :
    ∃ part parts, split separator t = part :: parts ∧
      split separator (c :: t) = (c :: part) :: parts := by
  obtain ⟨part, parts, hparts⟩ := List.exists_cons_of_ne_nil (split_ne_nil separator t)
  refine ⟨part, parts, hparts, ?_⟩
  rw [split, if_neg hc, hparts]

theorem join_split (old : CodePoint) (new t : Text) :
    join new (split old t) = t.replace old new := by
  induction t with
  | nil => rfl
  | cons c rest ih =>
      by_cases hc : c = old
      · subst hc
        rw [split_cons_self, join_cons _ _ (split_ne_nil c rest), ih]
        simp [replace]
      · obtain ⟨part, parts, hparts, hsplit⟩ := split_cons_of_ne rest hc
        have hreplace : replace (c :: rest) old new = c :: replace rest old new := by
          simp [replace, hc]
        rw [hsplit, hreplace, ← ih, hparts]
        cases parts <;> simp [join]

theorem split_append_cons (separator : CodePoint) (s t : Text) :
    split separator (s ++ separator :: t) = split separator s ++ split separator t := by
  induction s with
  | nil => simp [split]
  | cons c rest ih =>
      by_cases hc : c = separator
      · subst hc
        rw [List.cons_append, split_cons_self, split_cons_self, ih, List.cons_append]
      · obtain ⟨part, parts, hparts, hsplit⟩ := split_cons_of_ne rest hc
        obtain ⟨first, others, hfirst, hwhole⟩ :=
          split_cons_of_ne (rest ++ separator :: t) hc
        rw [ih, hparts, List.cons_append, List.cons.injEq] at hfirst
        rw [List.cons_append, hwhole, hsplit, ← hfirst.1, ← hfirst.2, List.cons_append]

theorem split_of_notMem {separator : CodePoint} {t : Text} (ht : separator ∉ t) :
    split separator t = [t] := by
  induction t with
  | nil => rfl
  | cons c rest ih =>
      rw [List.mem_cons, not_or] at ht
      rw [split, if_neg (Ne.symm ht.1), ih ht.2]

theorem notMem_of_mem_split {separator : CodePoint} {part t : Text}
    (hpart : part ∈ split separator t) : separator ∉ part := by
  induction t generalizing part with
  | nil =>
      rw [split, List.mem_singleton] at hpart
      subst hpart
      exact List.not_mem_nil
  | cons c rest ih =>
      by_cases hc : c = separator
      · subst hc
        rw [split_cons_self, List.mem_cons] at hpart
        rcases hpart with rfl | hrest
        · exact List.not_mem_nil
        · exact ih hrest
      · obtain ⟨first, others, hfirst, hsplit⟩ := split_cons_of_ne rest hc
        rw [hsplit, List.mem_cons] at hpart
        rw [hfirst] at ih
        rcases hpart with rfl | hothers
        · rw [List.mem_cons, not_or]
          exact ⟨Ne.symm hc, ih List.mem_cons_self⟩
        · exact ih (List.mem_cons_of_mem first hothers)

theorem length_split (separator : CodePoint) (t : Text) :
    (split separator t).length = t.count separator + 1 := by
  induction t with
  | nil => rfl
  | cons c rest ih =>
      by_cases hc : c = separator
      · subst hc
        rw [split_cons_self, List.length_cons, ih, List.count_cons_self]
      · obtain ⟨part, parts, hparts, hsplit⟩ := split_cons_of_ne rest hc
        rw [hparts, List.length_cons] at ih
        rw [hsplit, List.length_cons, ih, List.count_cons_of_ne hc]

theorem split_join (separator : CodePoint) {parts : List Text} (hparts : parts ≠ []) :
    split separator (join [separator] parts) = parts.flatMap (split separator) := by
  induction parts with
  | nil => exact absurd rfl hparts
  | cons t rest ih =>
      cases rest with
      | nil => simp [join]
      | cons u rest =>
          rw [join_cons _ _ (by simp), List.append_assoc, List.singleton_append,
            split_append_cons, ih (by simp)]
          simp only [List.flatMap_cons]

theorem replace_self (c : CodePoint) (t : Text) : replace t c [c] = t := by
  have hone : (fun d : CodePoint => if d = c then [c] else [d]) = fun d => [d] := by
    funext d
    split <;> simp_all
  rw [replace, hone, List.flatMap_singleton']

theorem infix_join {part : Text} {parts : List Text} (separator : Text) (hpart : part ∈ parts) :
    part <:+: join separator parts := by
  induction parts with
  | nil => exact absurd hpart List.not_mem_nil
  | cons t rest ih =>
      by_cases hrest : rest = []
      · subst hrest
        rw [List.mem_singleton.mp hpart]
        exact List.infix_refl t
      · rw [join_cons _ _ hrest]
        rcases List.mem_cons.mp hpart with rfl | hmem
        · rw [List.append_assoc]
          exact (List.prefix_append part _).isInfix
        · exact (ih hmem).trans (List.suffix_append _ _).isInfix

theorem infix_of_mem_split {separator : CodePoint} {part t : Text}
    (hpart : part ∈ split separator t) : part <:+: t := by
  rw [← replace_self separator t, ← join_split]
  exact infix_join [separator] hpart

end Text

end SchemaDocs
