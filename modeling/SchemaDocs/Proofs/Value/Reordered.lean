import SchemaDocs.Document.ExportRecord
import SchemaDocs.Proofs.Agreement
import SchemaDocs.Proofs.EntryOrder
import SchemaDocs.Proofs.Schema.Model
import SchemaDocs.Proofs.Value.Document
/-!
# Values in another order

Two values say the same in another order if one of them comes from the other by changing the order
of entries in its maps, at any depth.  Keys are looked up and sorted, so such values cannot be told
apart by what is found in them, by their literals or by their documents.

* `Reordered.toJson?_eq`, `Reordered.literal_eq`: what does not depend on the order;
* `Reordered.defaultOfRaw`: the defaults that come from such values.
-/

namespace SchemaDocs.Value

mutual

/-- Whether two values are the same up to the order of entries in maps with distinct keys. -/
inductive Reordered : Value → Value → Prop where
  | same (v : Value) : Reordered v v
  | list {access : Access} {items others : List Value} (hitems : ReorderedItems items others) :
      Reordered (.list access items) (.list access others)
  | map {access : Access} {entries between others : List (Text × Value)}
      (hkeys : (entries.map Prod.fst).Nodup) (hentries : ReorderedEntries entries between)
      (horder : between.Perm others) : Reordered (.map access entries) (.map access others)

inductive ReorderedItems : List Value → List Value → Prop where
  | nil : ReorderedItems [] []
  | cons {v w : Value} {items others : List Value} (hfirst : Reordered v w)
      (hrest : ReorderedItems items others) : ReorderedItems (v :: items) (w :: others)

inductive ReorderedEntries : List (Text × Value) → List (Text × Value) → Prop where
  | nil : ReorderedEntries [] []
  | cons {key : Text} {v w : Value} {entries others : List (Text × Value)} (hfirst : Reordered v w)
      (hrest : ReorderedEntries entries others) :
      ReorderedEntries ((key, v) :: entries) ((key, w) :: others)

end

theorem reorderedItems_iff {items others : List Value} :
    ReorderedItems items others ↔ List.Forall₂ Reordered items others := by
  constructor
  · intro h
    induction items generalizing others with
    | nil =>
        cases h
        exact .nil
    | cons v rest ih =>
        cases h with
        | cons hfirst hrest => exact .cons hfirst (ih hrest)
  · intro h
    induction h with
    | nil => exact .nil
    | cons hfirst _ ih => exact .cons hfirst ih

theorem ReorderedEntries.keys_eq : ∀ {entries others : List (Text × Value)},
    ReorderedEntries entries others → others.map Prod.fst = entries.map Prod.fst
  | _, _, .nil => rfl
  | _, _, .cons _ hrest => by rw [List.map_cons, List.map_cons, hrest.keys_eq]

/-! ## Locking and unlocking -/

theorem lockEntries_eq_map (entries : List (Text × Value)) :
    lockEntries entries = entries.map fun e => (e.1, e.2.lock) := by
  induction entries with
  | nil => rfl
  | cons e rest ih => rw [lockEntries, List.map_cons, ih]

theorem unlockEntries_eq_map (entries : List (Text × Value)) :
    unlockEntries entries = entries.map fun e => (e.1, e.2.unlock) := by
  induction entries with
  | nil => rfl
  | cons e rest ih => rw [unlockEntries, List.map_cons, ih]

theorem keys_map_values {α β : Type} (f : α → β) (entries : List (Text × α)) :
    (entries.map fun e => (e.1, f e.2)).map Prod.fst = entries.map Prod.fst := by
  rw [List.map_map]
  rfl

mutual

theorem Reordered.lock : ∀ {v w : Value}, Reordered v w → Reordered v.lock w.lock
  | _, _, .same v => .same v.lock
  | _, _, .list hitems => .list hitems.lock
  | _, _, .map hkeys hentries horder => by
      refine .map ?_ hentries.lock ?_
      · rwa [lockEntries_eq_map, keys_map_values]
      · rw [lockEntries_eq_map, lockEntries_eq_map]
        exact horder.map _

theorem ReorderedItems.lock : ∀ {items others : List Value}, ReorderedItems items others →
    ReorderedItems (lockItems items) (lockItems others)
  | _, _, .nil => .nil
  | _, _, .cons hfirst hrest => .cons hfirst.lock hrest.lock

theorem ReorderedEntries.lock : ∀ {entries others : List (Text × Value)},
    ReorderedEntries entries others → ReorderedEntries (lockEntries entries) (lockEntries others)
  | _, _, .nil => .nil
  | _, _, .cons hfirst hrest => .cons hfirst.lock hrest.lock

end

mutual

theorem Reordered.unlock : ∀ {v w : Value}, Reordered v w → Reordered v.unlock w.unlock
  | _, _, .same v => .same v.unlock
  | .list .writable _, _, .list hitems => .list hitems
  | .list .readOnly _, _, .list hitems => .list hitems.unlock
  | _, _, .map hkeys hentries horder => by
      refine .map ?_ hentries.unlock ?_
      · rwa [unlockEntries_eq_map, keys_map_values]
      · rw [unlockEntries_eq_map, unlockEntries_eq_map]
        exact horder.map _

theorem ReorderedItems.unlock : ∀ {items others : List Value}, ReorderedItems items others →
    ReorderedItems (unlockItems items) (unlockItems others)
  | _, _, .nil => .nil
  | _, _, .cons hfirst hrest => .cons hfirst.unlock hrest.unlock

theorem ReorderedEntries.unlock : ∀ {entries others : List (Text × Value)},
    ReorderedEntries entries others →
    ReorderedEntries (unlockEntries entries) (unlockEntries others)
  | _, _, .nil => .nil
  | _, _, .cons hfirst hrest => .cons hfirst.unlock hrest.unlock

end

/-! ## Documents and literals -/

mutual

/-- The members of a document are sorted, so the order of the entries does not matter for it. -/
theorem Reordered.toJson?_eq : ∀ {v w : Value}, Reordered v w → v.toJson? = w.toJson?
  | _, _, .same _ => rfl
  | _, _, .list hitems => by rw [toJson?, toJson?, hitems.toJsonItems_eq]
  | .map .readOnly _, _, .map _ _ _ => rfl
  | .map .writable entries, .map .writable others, .map hkeys hentries horder => by
      have hnodup : ((toJsonMembers entries).map Prod.fst).Nodup := by
        rwa [toJsonMembers_eq_map, keys_map_values]
      have hperm : (toJsonMembers entries).Perm (toJsonMembers others) := by
        rw [hentries.toJsonMembers_eq, toJsonMembers_eq_map, toJsonMembers_eq_map]
        exact horder.map _
      rw [toJson?, toJson?, sortByKey_eq_of_perm hperm hnodup]

theorem ReorderedItems.toJsonItems_eq : ∀ {items others : List Value},
    ReorderedItems items others → toJsonItems items = toJsonItems others
  | _, _, .nil => rfl
  | _, _, .cons hfirst hrest => by
      rw [toJsonItems, toJsonItems, hfirst.toJson?_eq, hrest.toJsonItems_eq]

theorem ReorderedEntries.toJsonMembers_eq : ∀ {entries others : List (Text × Value)},
    ReorderedEntries entries others → toJsonMembers entries = toJsonMembers others
  | _, _, .nil => rfl
  | _, _, .cons hfirst hrest => by
      rw [toJsonMembers, toJsonMembers, hfirst.toJson?_eq, hrest.toJsonMembers_eq]

end

mutual

theorem Reordered.literal_eq : ∀ {v w : Value}, Reordered v w → v.literal = w.literal
  | _, _, .same _ => rfl
  | _, _, .list hitems => by rw [literal, literal, hitems.itemLiterals_eq]
  | _, _, .map hkeys hentries horder => by
      rw [literal, literal, (Reordered.map hkeys hentries horder).unlock.toJson?_eq]

theorem ReorderedItems.itemLiterals_eq : ∀ {items others : List Value},
    ReorderedItems items others → itemLiterals items = itemLiterals others
  | _, _, .nil => rfl
  | _, _, .cons hfirst hrest => by
      rw [itemLiterals, itemLiterals, hfirst.literal_eq, hrest.itemLiterals_eq]

end

theorem Reordered.agree_embeddable {v w : Value} (h : Reordered v w) :
    Results.Agree Reordered v.embeddable w.embeddable := by
  unfold embeddable
  rw [h.toJson?_eq]
  cases w.toJson? with
  | ok j => exact .ok h
  | error cause =>
      cases cause with
      | longInteger => exact .error _
      | foreignObject | readOnlyMap =>
          refine (Results.agree_of_eq h.literal_eq).map fun s t heq => ?_
          rw [heq]
          exact .same _

/-! ## What is found in a value -/

theorem Reordered.isPresent_eq {v w : Value} (h : Reordered v w) : v.isPresent = w.isPresent := by
  cases h with
  | same => rfl
  | list hitems => cases hitems <;> rfl
  | @map access entries between others hkeys hentries horder =>
      cases hentries with
      | nil => rw [List.nil_perm.mp horder]
      | cons hfirst hrest =>
          cases others with
          | nil => exact absurd (List.perm_nil.mp horder) (List.cons_ne_nil _ _)
          | cons e rest => rfl

theorem ReorderedEntries.getD (key : Text) {entries others : List (Text × Value)}
    (h : ReorderedEntries entries others) : Reordered (getD key entries) (getD key others) := by
  induction entries generalizing others with
  | nil =>
      cases h
      exact .same .null
  | cons e rest ih =>
      cases h with
      | @cons k v w _ others hfirst hrest =>
          have hrest := ih hrest
          unfold Value.getD at hrest ⊢
          rw [valueAt?, valueAt?]
          by_cases hkey : k = key
          · rw [if_pos hkey, if_pos hkey]
            exact hfirst
          · rw [if_neg hkey, if_neg hkey]
            exact hrest

theorem Reordered.under {v w : Value} (h : Reordered v w) (key : Text) :
    Reordered (v.under key) (w.under key) := by
  cases h with
  | same => exact .same _
  | list hitems => exact .same .null
  | map hkeys hentries horder =>
      have hnodup := hkeys
      rw [← hentries.keys_eq] at hnodup
      have hfound := hentries.getD key
      rw [Value.getD, Value.getD, valueAt?_eq_of_perm horder hnodup] at hfound
      exact hfound

theorem Reordered.equals_text {v w : Value} (h : Reordered v w) (t : Text) :
    v.equals (.text t) = w.equals (.text t) := by
  cases h with
  | same => rfl
  | list => rfl
  | map => rfl

theorem Reordered.defaultOfRaw {v w : Value} (h : Reordered v w) :
    Reordered (Field.defaultOfRaw v) (Field.defaultOfRaw w) := by
  have hpresent := h.isPresent_eq
  have hlock := h.lock
  cases h with
  | same => exact .same _
  | @list access items others hitems =>
      simp only [Field.defaultOfRaw, hpresent]
      by_cases hothers : (Value.list access others).isPresent = true
      · rw [if_pos hothers, if_pos hothers]
        exact hlock
      · rw [if_neg hothers, if_neg hothers]
        exact .same .null
  | @map access entries between others hkeys hentries horder =>
      have hmap : Reordered (.map access entries) (.map access others) :=
        .map hkeys hentries horder
      have hname : Reordered (Value.getD "name" entries) (Value.getD "name" others) :=
        hmap.under "name"
      simp only [Field.defaultOfRaw, hpresent, hname.isPresent_eq]
      by_cases hothers : (Value.map access others).isPresent = true
      · rw [if_pos hothers, if_pos hothers]
        by_cases hnamed : (Value.getD "name" others).isPresent = true
        · rw [if_pos hnamed, if_pos hnamed]
          exact hname
        · rw [if_neg hnamed, if_neg hnamed]
          exact hlock
      · rw [if_neg hothers, if_neg hothers]
        exact .same .null

end SchemaDocs.Value
