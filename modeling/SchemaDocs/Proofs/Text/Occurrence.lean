import SchemaDocs.Text.Basic
/-!
# Occurrences of a pattern

A text is cut at the first occurrence of a pattern.  A text avoids a pattern if no occurrence of the
pattern begins in it, whatever text follows: at each place the two differ before either of them
ends.  That can be computed for a fixed text, and it is kept when texts are put together.

* `cut?_append`: a text that avoids a pattern is what stands before the first occurrence.
-/

namespace SchemaDocs.Text

/-- The text before the first occurrence of a pattern and the text after it. -/
def cut? (pattern : Text) : Text → Option (Text × Text)
  | [] => (dropStart? pattern []).map fun after => ([], after)
  | c :: rest =>
    match dropStart? pattern (c :: rest) with
    | some after => some ([], after)
    | none => (cut? pattern rest).map fun (before, after) => (c :: before, after)

/-- Whether two texts differ at a place that both of them have. -/
def differs : Text → Text → Bool
  | p :: ps, c :: t => p != c || differs ps t
  | _, _ => false

/-- Whether no occurrence of a pattern begins in a text, whatever follows the text. -/
def avoids (pattern : Text) : Text → Bool
  | [] => true
  | c :: rest => differs pattern (c :: rest) && avoids pattern rest

/-! ## The start of a text -/

@[simp] theorem dropStart?_append (start t : Text) : dropStart? start (start ++ t) = some t := by
  induction start with
  | nil => rfl
  | cons p ps ih => rw [List.cons_append, dropStart?, if_pos rfl, ih]

theorem differs_append {pattern s : Text} (h : differs pattern s) (t : Text) :
    differs pattern (s ++ t) := by
  induction pattern generalizing s with
  | nil => cases h
  | cons p ps ih =>
      cases s with
      | nil => cases h
      | cons c s =>
          simp only [differs, List.cons_append, Bool.or_eq_true] at h ⊢
          exact h.imp_right ih

theorem dropStart?_of_differs {pattern t : Text} (h : differs pattern t) :
    dropStart? pattern t = none := by
  induction pattern generalizing t with
  | nil => cases h
  | cons p ps ih =>
      cases t with
      | nil => rfl
      | cons c t =>
          simp only [differs, bne_iff_ne, Bool.or_eq_true] at h
          rw [dropStart?]
          split
          · next hpc => exact ih (h.resolve_left fun hne => hne hpc)
          · rfl

/-! ## Avoiding a pattern -/

theorem avoids_append {pattern s t : Text} (hs : avoids pattern s) (ht : avoids pattern t) :
    avoids pattern (s ++ t) := by
  induction s with
  | nil => exact ht
  | cons c rest ih =>
      simp only [avoids, Bool.and_eq_true] at hs
      rw [List.cons_append, avoids, Bool.and_eq_true]
      exact ⟨differs_append hs.1 t, ih hs.2⟩

theorem avoids_of_notMem {p : CodePoint} {pattern t : Text} (hp : pattern.head? = some p)
    (ht : p ∉ t) : avoids pattern t := by
  obtain ⟨ps, rfl⟩ := List.head?_eq_some_iff.mp hp
  induction t with
  | nil => rfl
  | cons c rest ih =>
      rw [List.mem_cons, not_or] at ht
      simp [avoids, differs, ht.1, ih ht.2]

/-- Strings are compared by their characters, which are listed by reflexivity. -/
theorem avoids_ofString {pattern s : String} {ps cs : List Char} (hp : pattern = String.ofList ps)
    (hs : s = String.ofList cs) (h : avoids (ps.map CodePoint.ofChar) (cs.map CodePoint.ofChar)) :
    avoids (ofString pattern) (ofString s) := by
  rw [hp, hs, ofString, ofString, String.toList_ofList, String.toList_ofList]
  exact h

theorem cut?_append {pattern before : Text} (h : avoids pattern before) (after : Text) :
    cut? pattern (before ++ (pattern ++ after)) = some (before, after) := by
  induction before with
  | nil =>
      rw [List.nil_append]
      have hstart := dropStart?_append pattern after
      cases hwhole : pattern ++ after with
      | nil => rw [hwhole] at hstart; rw [cut?, hstart]; rfl
      | cons c rest => rw [hwhole] at hstart; rw [cut?, hstart]
  | cons c rest ih =>
      simp only [avoids, Bool.and_eq_true] at h
      have hnone : dropStart? pattern (c :: (rest ++ (pattern ++ after))) = none :=
        dropStart?_of_differs (differs_append h.1 _)
      rw [List.cons_append, cut?, hnone, ih h.2]
      rfl

theorem not_infix_of_avoids {pattern t : Text} (hpattern : pattern ≠ [])
    (h : avoids pattern t) : ¬ pattern <:+: t := by
  induction t with
  | nil =>
      intro hinfix
      exact hpattern (List.infix_nil.mp hinfix)
  | cons c rest ih =>
      simp only [avoids, Bool.and_eq_true] at h
      intro hinfix
      rcases List.infix_cons_iff.mp hinfix with ⟨after, hfront⟩ | hrest
      · have hstart := dropStart?_append pattern after
        rw [hfront, dropStart?_of_differs h.1] at hstart
        cases hstart
      · exact ih h.2 hrest

end SchemaDocs.Text
