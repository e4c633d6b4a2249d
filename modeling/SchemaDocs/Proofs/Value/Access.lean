import SchemaDocs.Document.ExportRecord
import SchemaDocs.Proofs.Value.Document
import SchemaDocs.Proofs.Value.OneAccess
/-!
# Literals of writable values

Making a value writable does not change its literal.  So a value that has a literal can always be
embedded: where JSON cannot express it, its literal can.
-/

namespace SchemaDocs.Value

mutual

theorem literal_unlock : ∀ v : Value, v.unlock.literal = v.literal
  | .null | .bool _ | .int _ | .float _ | .text _ | .foreign _ | .list .writable _ => rfl
  | .list .readOnly items => by
      simp only [unlock, literal]
      rw [itemLiterals_unlockItems items]
  | .map access entries => by
      have hidem := unlock_unlock (.map access entries)
      simp only [unlock, literal] at hidem ⊢
      rw [hidem]

theorem itemLiterals_unlockItems : ∀ items : List Value,
    itemLiterals (unlockItems items) = itemLiterals items
  | [] => rfl
  | v :: rest => by
      simp only [unlockItems, itemLiterals]
      rw [literal_unlock v, itemLiterals_unlockItems rest]

end

theorem exists_embeddable_unlock {v : Value} {l : Text} (hl : v.literal = .ok l) :
    ∃ w, v.unlock.embeddable = .ok w := by
  have hshort : v.unlock.ShortIntegers :=
    (shortIntegers_unlock_iff v).mpr (shortIntegers_of_literal v hl)
  unfold embeddable
  cases hjson : v.unlock.toJson? with
  | ok j => exact ⟨v.unlock, rfl⟩
  | error cause =>
      cases cause with
      | longInteger => exact absurd hjson (toJson?_ne_longInteger _ hshort)
      | foreignObject | readOnlyMap => exact ⟨.text l, by rw [literal_unlock, hl]; rfl⟩

end SchemaDocs.Value
