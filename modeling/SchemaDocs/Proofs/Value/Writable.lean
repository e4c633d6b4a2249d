import SchemaDocs.Json.Basic
import SchemaDocs.Proofs.Value.OneAccess
/-!
# Writable values

A value is writable if every container in it is writable, at every depth, as it is in the value of a
JSON document.  Such a value is its own writable form, also after it was made read-only.

* `unlock_of_writable`, `unlock_lock_of_writable`: the writable form of such a value;
* `lock_unlock_laws`: locking and making writable undo each other, and doing one of them twice is
  doing it once;
* `writable_ofJson`: the value of a JSON document.
-/

namespace SchemaDocs.Value

mutual

/-- Whether the containers of a value are writable at every depth. -/
def Writable : Value → Prop
  | .list access items => access = .writable ∧ WritableItems items
  | .map access entries => access = .writable ∧ WritableEntries entries
  | _ => True

def WritableItems : List Value → Prop
  | [] => True
  | v :: rest => v.Writable ∧ WritableItems rest

def WritableEntries : List (Text × Value) → Prop
  | [] => True
  | (_, v) :: rest => v.Writable ∧ WritableEntries rest

end

/-! ## Writable access -/

mutual

theorem writable_withAccess : ∀ v : Value, (v.withAccess .writable).Writable
  | .null | .bool _ | .int _ | .float _ | .text _ | .foreign _ => trivial
  | .list _ items => ⟨rfl, writableItems_withAccessItems items⟩
  | .map _ entries => ⟨rfl, writableEntries_withAccessEntries entries⟩

theorem writableItems_withAccessItems : ∀ items : List Value,
    WritableItems (withAccessItems .writable items)
  | [] => trivial
  | v :: rest => ⟨writable_withAccess v, writableItems_withAccessItems rest⟩

theorem writableEntries_withAccessEntries : ∀ entries : List (Text × Value),
    WritableEntries (withAccessEntries .writable entries)
  | [] => trivial
  | (_, v) :: rest => ⟨writable_withAccess v, writableEntries_withAccessEntries rest⟩

end

mutual

theorem withAccess_of_writable : ∀ v : Value, v.Writable → v.withAccess .writable = v
  | .null, _ | .bool _, _ | .int _, _ | .float _, _ | .text _, _ | .foreign _, _ => rfl
  | .list _ items, ⟨rfl, hitems⟩ => by
      rw [withAccess, withAccessItems_of_writable items hitems]
  | .map _ entries, ⟨rfl, hentries⟩ => by
      rw [withAccess, withAccessEntries_of_writable entries hentries]

theorem withAccessItems_of_writable : ∀ items : List Value, WritableItems items →
    withAccessItems .writable items = items
  | [], _ => rfl
  | v :: rest, h => by
      rw [withAccessItems, withAccess_of_writable v h.1, withAccessItems_of_writable rest h.2]

theorem withAccessEntries_of_writable : ∀ entries : List (Text × Value), WritableEntries entries →
    withAccessEntries .writable entries = entries
  | [], _ => rfl
  | (key, v) :: rest, h => by
      rw [withAccessEntries, withAccess_of_writable v h.1,
        withAccessEntries_of_writable rest h.2]

end

theorem unlock_lock_of_writable (v : Value) (h : v.Writable) : v.lock.unlock = v := by
  rw [unlock_lock, withAccess_of_writable v h]

/-- It is what its locked form becomes when that is made writable, and making writable once more
changes nothing. -/
theorem unlock_of_writable (v : Value) (h : v.Writable) : v.unlock = v := by
  have hlock := unlock_lock_of_writable v h
  calc v.unlock = v.lock.unlock.unlock := by rw [hlock]
    _ = v.lock.unlock := unlock_unlock v.lock
    _ = v := hlock

/-- A value that was locked and made writable is the value with writable containers at every depth,
so no container in it is read-only, and locking it once more gives the locked value.  Locking twice
is locking once, and so it is with making writable. -/
theorem lock_unlock_laws (v : Value) :
    v.lock.unlock.Writable ∧ v.lock.unlock = v.withAccess .writable ∧
      v.lock.unlock.lock = v.lock ∧ v.lock.lock = v.lock ∧ v.unlock.unlock = v.unlock := by
  refine ⟨?_, unlock_lock v, lock_unlock_lock v, lock_lock v, unlock_unlock v⟩
  rw [unlock_lock]
  exact writable_withAccess v

/-! ## Values of documents -/

mutual

theorem writable_ofJson : ∀ j : Json, (ofJson j).Writable
  | .null | .bool _ | .int _ | .real _ | .string _ => trivial
  | .array items => ⟨rfl, writableItems_ofJsonItems items⟩
  | .object members => ⟨rfl, writableEntries_ofJsonMembers members⟩

theorem writableItems_ofJsonItems : ∀ items : List Json, WritableItems (ofJsonItems items)
  | [] => trivial
  | j :: rest => ⟨writable_ofJson j, writableItems_ofJsonItems rest⟩

theorem writableEntries_ofJsonMembers : ∀ members : List (Text × Json),
    WritableEntries (ofJsonMembers members)
  | [] => trivial
  | (_, j) :: rest => ⟨writable_ofJson j, writableEntries_ofJsonMembers rest⟩

end

/-! ## What is found in a writable value -/

theorem writable_getD (key : Text) {entries : List (Text × Value)} (h : WritableEntries entries) :
    (getD key entries).Writable := by
  induction entries with
  | nil => trivial
  | cons e rest ih =>
      have hrest := ih h.2
      unfold getD at hrest ⊢
      rw [valueAt?]
      by_cases hkey : e.1 = key
      · rw [if_pos hkey]
        exact h.1
      · rw [if_neg hkey]
        exact hrest

end SchemaDocs.Value
