import Mathlib.Data.List.Nodup
import SchemaDocs.Proofs.Entries
/-!
# The order of entries

Dictionary order is a total order of texts.  So entries with distinct keys have one sorted order,
whatever the order is in which they are given, and it does not matter either for what is found under
a key.

* `valueAt?_eq_of_perm`, `sortByKey_eq_of_perm`: entries in another order.
-/

namespace SchemaDocs

/-! ## Dictionary order -/

namespace Text

theorem cons_le_cons {a b : CodePoint} {s t : Text} :
    le (a :: s) (b :: t) = true ↔ a.value < b.value ∨ a.value = b.value ∧ le s t = true := by
  rw [le, Bool.or_eq_true, Bool.and_eq_true, decide_eq_true_eq, beq_iff_eq]

theorem le_total : ∀ s t : Text, le s t = true ∨ le t s = true
  | [], _ => .inl rfl
  | _ :: _, [] => .inr rfl
  | a :: s, b :: t => by
      rw [cons_le_cons, cons_le_cons]
      rcases le_total s t with h | h <;> simp only [h, and_true] <;> omega

theorem le_trans : ∀ {s t u : Text}, le s t = true → le t u = true → le s u = true
  | [], _, _, _, _ => rfl
  | a :: s, b :: t, c :: u, hst, htu => by
      rw [cons_le_cons] at hst htu ⊢
      rcases hst with hst | ⟨hst, hs⟩
      · omega
      · rcases htu with htu | ⟨htu, ht⟩
        · omega
        · exact .inr ⟨hst.trans htu, le_trans hs ht⟩

theorem le_antisymm : ∀ {s t : Text}, le s t = true → le t s = true → s = t
  | [], [], _, _ => rfl
  | a :: s, b :: t, hst, hts => by
      rw [cons_le_cons] at hst hts
      have hvalue : a.value = b.value := by omega
      have hs : le s t = true := (hst.resolve_left (by omega)).2
      have ht : le t s = true := (hts.resolve_left (by omega)).2
      rw [CodePoint.ext hvalue, le_antisymm hs ht]

end Text

variable {α : Type} {xs ys : List (Text × α)}

/-! ## Looking up -/

theorem valueAt?_eq_some_iff (hkeys : (xs.map Prod.fst).Nodup) {key : Text} {value : α} :
    valueAt? key xs = some value ↔ (key, value) ∈ xs := by
  induction xs with
  | nil => simp [valueAt?]
  | cons e rest ih =>
      rw [List.map_cons, List.nodup_cons] at hkeys
      rw [valueAt?, List.mem_cons]
      by_cases heq : e.1 = key
      · have hrest : (key, value) ∉ rest := fun hmem =>
          hkeys.1 (heq ▸ List.mem_map_of_mem hmem)
        rw [if_pos heq, ← heq]
        simp only [Option.some.injEq, Prod.ext_iff, true_and]
        constructor
        · exact fun h => .inl h.symm
        · rintro (h | h)
          · exact h.symm
          · exact absurd (heq ▸ h) hrest
      · rw [if_neg heq, ih hkeys.2]
        constructor
        · exact .inr
        · rintro (h | h)
          · exact absurd (Prod.ext_iff.mp h).1.symm heq
          · exact h

theorem valueAt?_eq_of_perm (h : xs.Perm ys) (hkeys : (xs.map Prod.fst).Nodup) (key : Text) :
    valueAt? key xs = valueAt? key ys := by
  have hkeys' : (ys.map Prod.fst).Nodup := (h.map Prod.fst).nodup_iff.mp hkeys
  ext value
  rw [valueAt?_eq_some_iff hkeys, valueAt?_eq_some_iff hkeys', h.mem_iff]

/-! ## Sorting -/

theorem pairwise_insertByKey (e : Text × α)
    (h : xs.Pairwise fun x y => Text.le x.1 y.1 = true) :
    (insertByKey e xs).Pairwise fun x y => Text.le x.1 y.1 = true := by
  induction xs with
  | nil => exact List.pairwise_singleton _ e
  | cons head rest ih =>
      obtain ⟨hhead, hrest⟩ := List.pairwise_cons.mp h
      rw [insertByKey]
      by_cases hle : Text.le e.1 head.1 = true
      · rw [if_pos hle]
        refine List.pairwise_cons.mpr ⟨fun x hx => ?_, h⟩
        rcases List.mem_cons.mp hx with rfl | hx
        · exact hle
        · exact Text.le_trans hle (hhead x hx)
      · rw [if_neg hle]
        refine List.pairwise_cons.mpr ⟨fun x hx => ?_, ih hrest⟩
        rcases List.mem_cons.mp ((insertByKey_perm e rest).mem_iff.mp hx) with rfl | hx
        · exact (Text.le_total x.1 head.1).resolve_left hle
        · exact hhead x hx

theorem pairwise_sortByKey (xs : List (Text × α)) :
    (sortByKey xs).Pairwise fun x y => Text.le x.1 y.1 = true := by
  induction xs with
  | nil => exact List.Pairwise.nil
  | cons e rest ih => exact pairwise_insertByKey e ih

theorem sortByKey_eq_of_perm (h : xs.Perm ys) (hkeys : (xs.map Prod.fst).Nodup) :
    sortByKey xs = sortByKey ys := by
  have hsorted : (sortByKey xs).Perm (sortByKey ys) :=
    (sortByKey_perm xs).trans (h.trans (sortByKey_perm ys).symm)
  refine hsorted.eq_of_pairwise (fun a b ha hb hab hba => ?_) (pairwise_sortByKey xs)
    (pairwise_sortByKey ys)
  have ha : a ∈ xs := (sortByKey_perm xs).mem_iff.mp ha
  have hb : b ∈ xs := h.mem_iff.mpr ((sortByKey_perm ys).mem_iff.mp hb)
  exact List.inj_on_of_nodup_map hkeys ha hb (Text.le_antisymm hab hba)

end SchemaDocs
