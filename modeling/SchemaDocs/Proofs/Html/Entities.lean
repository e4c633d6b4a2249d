import SchemaDocs.Html.Fragment
import SchemaDocs.Proofs.Text.Occurrence
/-!
# Entities

Shown text holds none of the characters that begin or end markup, and putting the characters back
for their entities gives the text that was shown.
-/

namespace SchemaDocs.Html

def entities : List (Text × CodePoint) :=
  [("&amp;", '&'), ("&lt;", '<'), ("&gt;", '>'), ("&#39;", '\''), ("&#34;", '"')]

/-- The character of an entity at the start of a text and the length of the entity. -/
def entityAt? (t : Text) : Option (CodePoint × Nat) :=
  entities.findSome? fun (entity, c) =>
    if t.startsWith entity then some (c, entity.length) else none

/-- A text with the characters for its entities.  The first `skip` code points belong to an entity
that has been read. -/
def unescapedFrom (skip : Nat) : Text → Text
  | [] => []
  | c :: rest =>
    match skip with
    | skip + 1 => unescapedFrom skip rest
    | 0 =>
      match entityAt? (c :: rest) with
      | some (d, length) => d :: unescapedFrom (length - 1) rest
      | none => c :: unescapedFrom 0 rest

def unescaped (t : Text) : Text :=
  unescapedFrom 0 t

theorem entityAt?_of_ne {c : CodePoint} (hc : c ≠ '&') (t : Text) : entityAt? (c :: t) = none := by
  have hne : (CodePoint.ofChar '&') ≠ c := hc.symm
  simp [entityAt?, entities, Text.startsWith, Text.ofString, Text.dropStart?, hne]

theorem unescapedFrom_escapedOne (c : CodePoint) (t : Text) :
    unescapedFrom 0 (escapedOne c ++ t) = c :: unescapedFrom 0 t := by
  unfold escapedOne
  split
  · next h => rw [h]; rfl
  split
  · next h => rw [h]; rfl
  split
  · next h => rw [h]; rfl
  split
  · next h => rw [h]; rfl
  split
  · next h => rw [h]; rfl
  · next hc _ _ _ _ =>
      rw [List.singleton_append, unescapedFrom, entityAt?_of_ne hc]

@[simp] theorem unescaped_escaped (t : Text) : unescaped (escaped t) = t := by
  unfold unescaped
  induction t with
  | nil => rfl
  | cons c rest ih =>
      have hcons : escaped (c :: rest) = escapedOne c ++ escaped rest := List.flatMap_cons
      rw [hcons, unescapedFrom_escapedOne, ih]

/-! ## Which characters shown text holds -/

/-- A character that neither begins markup nor ends an attribute value. -/
def isShown (c : CodePoint) : Bool :=
  c != '<' && c != '>' && c != '"' && c != '\''

theorem isShown_of_mem_escapedOne {c d : CodePoint} (hd : d ∈ escapedOne c) : isShown d = true := by
  unfold escapedOne at hd
  split at hd
  · revert d; decide
  split at hd
  · revert d; decide
  split at hd
  · revert d; decide
  split at hd
  · revert d; decide
  split at hd
  · revert d; decide
  · next hamp hlt hgt hsingle hdouble =>
      rw [List.mem_singleton.mp hd]
      simp [isShown, hlt, hgt, hsingle, hdouble]

theorem isShown_of_mem_escaped {t : Text} {c : CodePoint} (hc : c ∈ escaped t) :
    isShown c = true := by
  obtain ⟨d, -, hd⟩ := List.mem_flatMap.mp hc
  exact isShown_of_mem_escapedOne hd

theorem lt_notMem_escaped (t : Text) : CodePoint.ofChar '<' ∉ escaped t := by
  intro h
  exact absurd (isShown_of_mem_escaped h) (by decide)

end SchemaDocs.Html
