import SchemaDocs.Value.Basic
/-!
# Read-only values

A value is locked if every container in it is read-only, at every depth.

* `locked_lock`: locking leaves no container writable, wherever it is;
* `isPresent_lock`, `getD_lockEntries`: what is found in a value that was locked.
-/

namespace SchemaDocs.Value

mutual

/-- Whether the containers of a value are read-only at every depth. -/
def Locked : Value → Prop
  | .list access items => access = .readOnly ∧ LockedItems items
  | .map access entries => access = .readOnly ∧ LockedEntries entries
  | _ => True

def LockedItems : List Value → Prop
  | [] => True
  | v :: rest => v.Locked ∧ LockedItems rest

def LockedEntries : List (Text × Value) → Prop
  | [] => True
  | (_, v) :: rest => v.Locked ∧ LockedEntries rest

end

mutual

theorem locked_lock : ∀ v : Value, v.lock.Locked
  | .null | .bool _ | .int _ | .float _ | .text _ | .foreign _ => trivial
  | .list _ items => ⟨rfl, lockedItems_lockItems items⟩
  | .map _ entries => ⟨rfl, lockedEntries_lockEntries entries⟩

theorem lockedItems_lockItems : ∀ items : List Value, LockedItems (lockItems items)
  | [] => trivial
  | v :: rest => ⟨locked_lock v, lockedItems_lockItems rest⟩

theorem lockedEntries_lockEntries : ∀ entries : List (Text × Value),
    LockedEntries (lockEntries entries)
  | [] => trivial
  | (_, v) :: rest => ⟨locked_lock v, lockedEntries_lockEntries rest⟩

end

/-! ## What is found in a locked value -/

theorem isPresent_lock (v : Value) : v.lock.isPresent = v.isPresent := by
  cases v with
  | list access items => cases items <;> rfl
  | map access entries => cases entries <;> rfl
  | _ => rfl

theorem getD_lockEntries (key : Text) (entries : List (Text × Value)) :
    getD key (lockEntries entries) = (getD key entries).lock := by
  induction entries with
  | nil => rfl
  | cons e rest ih =>
      unfold getD at ih ⊢
      rw [lockEntries, valueAt?, valueAt?]
      by_cases hkey : e.1 = key
      · rw [if_pos hkey, if_pos hkey]
        rfl
      · rw [if_neg hkey, if_neg hkey]
        exact ih

end SchemaDocs.Value
