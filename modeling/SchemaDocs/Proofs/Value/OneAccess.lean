import SchemaDocs.Value.Basic
/-!
# Values with one access

A value whose containers all get the same access is the same value otherwise.  Locking a value gives
them read-only access.  Making a value writable does not look into lists that are writable already,
so on its own it may leave a container read-only; a locked value has no such lists.

* `lock_eq_withAccess`, `unlock_lock`: what locking gives, and what it becomes again;
* `lock_lock`, `unlock_unlock`, `lock_unlock_lock`: one of them after the other.
-/

namespace SchemaDocs.Value

mutual

/-- A value with the same access for its containers at every depth. -/
def withAccess (access : Access) : Value → Value
  | .list _ items => .list access (withAccessItems access items)
  | .map _ entries => .map access (withAccessEntries access entries)
  | v => v

def withAccessItems (access : Access) : List Value → List Value
  | [] => []
  | v :: rest => v.withAccess access :: withAccessItems access rest

def withAccessEntries (access : Access) : List (Text × Value) → List (Text × Value)
  | [] => []
  | (key, v) :: rest => (key, v.withAccess access) :: withAccessEntries access rest

end

mutual

theorem withAccess_withAccess (a b : Access) : ∀ v : Value,
    (v.withAccess a).withAccess b = v.withAccess b
  | .null | .bool _ | .int _ | .float _ | .text _ | .foreign _ => rfl
  | .list _ items => by
      simp only [withAccess]
      rw [withAccessItems_withAccessItems a b items]
  | .map _ entries => by
      simp only [withAccess]
      rw [withAccessEntries_withAccessEntries a b entries]

theorem withAccessItems_withAccessItems (a b : Access) : ∀ items : List Value,
    withAccessItems b (withAccessItems a items) = withAccessItems b items
  | [] => rfl
  | v :: rest => by
      simp only [withAccessItems]
      rw [withAccess_withAccess a b v, withAccessItems_withAccessItems a b rest]

theorem withAccessEntries_withAccessEntries (a b : Access) : ∀ entries : List (Text × Value),
    withAccessEntries b (withAccessEntries a entries) = withAccessEntries b entries
  | [] => rfl
  | (key, v) :: rest => by
      simp only [withAccessEntries]
      rw [withAccess_withAccess a b v, withAccessEntries_withAccessEntries a b rest]

end

/-! ## Locking -/

mutual

theorem lock_eq_withAccess : ∀ v : Value, v.lock = v.withAccess .readOnly
  | .null | .bool _ | .int _ | .float _ | .text _ | .foreign _ => rfl
  | .list _ items => by rw [lock, withAccess, lockItems_eq_withAccessItems items]
  | .map _ entries => by rw [lock, withAccess, lockEntries_eq_withAccessEntries entries]

theorem lockItems_eq_withAccessItems : ∀ items : List Value,
    lockItems items = withAccessItems .readOnly items
  | [] => rfl
  | v :: rest => by
      rw [lockItems, withAccessItems, lock_eq_withAccess v, lockItems_eq_withAccessItems rest]

theorem lockEntries_eq_withAccessEntries : ∀ entries : List (Text × Value),
    lockEntries entries = withAccessEntries .readOnly entries
  | [] => rfl
  | (key, v) :: rest => by
      rw [lockEntries, withAccessEntries, lock_eq_withAccess v,
        lockEntries_eq_withAccessEntries rest]

end

theorem lock_lock (v : Value) : v.lock.lock = v.lock := by
  rw [lock_eq_withAccess, lock_eq_withAccess, withAccess_withAccess]

theorem lockEntries_lockEntries (entries : List (Text × Value)) :
    lockEntries (lockEntries entries) = lockEntries entries := by
  rw [lockEntries_eq_withAccessEntries, lockEntries_eq_withAccessEntries,
    withAccessEntries_withAccessEntries]

/-! ## Making writable -/

mutual

theorem unlock_withAccess_readOnly : ∀ v : Value,
    (v.withAccess .readOnly).unlock = v.withAccess .writable
  | .null | .bool _ | .int _ | .float _ | .text _ | .foreign _ => rfl
  | .list _ items => by
      simp only [withAccess, unlock]
      rw [unlockItems_withAccessItems items]
  | .map _ entries => by
      simp only [withAccess, unlock]
      rw [unlockEntries_withAccessEntries entries]

theorem unlockItems_withAccessItems : ∀ items : List Value,
    unlockItems (withAccessItems .readOnly items) = withAccessItems .writable items
  | [] => rfl
  | v :: rest => by
      simp only [withAccessItems, unlockItems]
      rw [unlock_withAccess_readOnly v, unlockItems_withAccessItems rest]

theorem unlockEntries_withAccessEntries : ∀ entries : List (Text × Value),
    unlockEntries (withAccessEntries .readOnly entries) = withAccessEntries .writable entries
  | [] => rfl
  | (key, v) :: rest => by
      simp only [withAccessEntries, unlockEntries]
      rw [unlock_withAccess_readOnly v, unlockEntries_withAccessEntries rest]

end

/-- A locked value has no writable lists, so making it writable reaches all containers. -/
theorem unlock_lock (v : Value) : v.lock.unlock = v.withAccess .writable := by
  rw [lock_eq_withAccess, unlock_withAccess_readOnly]

/-- Without locking, a list inside a writable one stays read-only. -/
example : (list .writable [list .readOnly []]).unlock = list .writable [list .readOnly []] := rfl

theorem lock_unlock_lock (v : Value) : v.lock.unlock.lock = v.lock := by
  rw [unlock_lock, lock_eq_withAccess, lock_eq_withAccess, withAccess_withAccess]

mutual

theorem unlock_unlock : ∀ v : Value, v.unlock.unlock = v.unlock
  | .null | .bool _ | .int _ | .float _ | .text _ | .foreign _ => rfl
  | .list .writable _ | .list .readOnly _ => rfl
  | .map _ entries => by
      simp only [unlock]
      rw [unlockEntries_unlockEntries entries]

theorem unlockEntries_unlockEntries : ∀ entries : List (Text × Value),
    unlockEntries (unlockEntries entries) = unlockEntries entries
  | [] => rfl
  | (key, v) :: rest => by
      simp only [unlockEntries]
      rw [unlock_unlock v, unlockEntries_unlockEntries rest]

end

end SchemaDocs.Value
