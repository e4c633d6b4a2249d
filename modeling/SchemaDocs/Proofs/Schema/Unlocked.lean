import SchemaDocs.Proofs.Results
import SchemaDocs.Proofs.Value.Locked
import SchemaDocs.Proofs.Value.Writable
import SchemaDocs.Schema.Model
/-!
# Models of read-only schemas

A raw schema with writable containers and its read-only copy are rejected for the same reason, or
they are read as models that only differ in what may be changed.  They do differ: the name of a
function descriptor is taken as it is, so of the copy it is read-only.

* `Model.unlocked`: a model with the defaults of its fields made writable;
* `Model.listOfValue_lock`: how the copy is read.
-/

namespace SchemaDocs

open Results

namespace Field

def unlocked (f : Field) : Field :=
  { f with default := f.default.unlock }

theorem name_unlocked (f : Field) : f.unlocked.name = f.name := rfl

theorem type_unlocked (f : Field) : f.unlocked.type = f.type := rfl

/-- The default of a read-only copy.  A function descriptor gives its name: from the copy a locked
one, which is the name itself once it is writable. -/
theorem unlock_defaultOfRaw_lock {raw : Value} (h : raw.Writable) :
    (defaultOfRaw raw.lock).unlock = (defaultOfRaw raw).unlock := by
  unfold defaultOfRaw
  rw [Value.isPresent_lock]
  by_cases hpresent : raw.isPresent = true
  · rw [if_pos hpresent, if_pos hpresent]
    cases raw with
    | map access entries =>
        have hname : (Value.getD "name" entries).Writable := Value.writable_getD _ h.2
        dsimp only [Value.lock]
        rw [Value.getD_lockEntries, Value.isPresent_lock]
        by_cases hnamed : (Value.getD "name" entries).isPresent = true
        · rw [if_pos hnamed, if_pos hnamed, Value.unlock_lock_of_writable _ hname,
            Value.unlock_of_writable _ hname]
        · rw [if_neg hnamed, if_neg hnamed, Value.lockEntries_lockEntries]
    | list access items => exact congrArg Value.unlock (Value.lock_lock (.list access items))
    | _ => rfl
  · rw [if_neg hpresent, if_neg hpresent]

theorem equals_text_of_unlock_eq {v w : Value} (h : v.unlock = w.unlock) (t : Text) :
    v.equals (.text t) = w.equals (.text t) := by
  have hunlock : ∀ u : Value, u.unlock.equals (.text t) = u.equals (.text t) := by
    intro u
    cases u with
    | list access items => cases access <;> rfl
    | _ => rfl
  rw [← hunlock v, h, hunlock w]

theorem ofValue_lock {raw : Value} (h : raw.Writable) (model : Text) (index : Nat) :
    (ofValue model index raw.lock).map unlocked = (ofValue model index raw).map unlocked := by
  cases raw with
  | map access entries =>
      have hunlock := unlock_defaultOfRaw_lock (Value.writable_getD "default" h.2)
      have hupdated := equals_text_of_unlock_eq hunlock "updatedAt"
      unfold ofValue
      simp only [Value.lock, Value.getD_lockEntries, Value.isPresent_lock]
      cases Value.getD "name" entries with
      | text name =>
          cases Value.getD "type" entries with
          | text type =>
              dsimp only [Value.lock]
              by_cases hblank : (name.isEmpty || type.isEmpty) = true
              · rw [if_pos hblank, if_pos hblank]
              · rw [if_neg hblank, if_neg hblank]
                simp only [Except.map, unlocked, hunlock, hupdated]
          | _ => rfl
      | _ => rfl
  | _ => rfl

theorem listOfValues_lock {raws : List Value} (h : Value.WritableItems raws) (model : Text)
    (index : Nat) :
    (listOfValues model index (Value.lockItems raws)).map (List.map unlocked) =
      (listOfValues model index raws).map (List.map unlocked) := by
  induction raws generalizing index with
  | nil => rfl
  | cons raw rest ih => exact map_cons_congr (ofValue_lock h.1 model index) (ih h.2 (index + 1))

end Field

namespace Model

def unlocked (m : Model) : Model :=
  { m with fields := m.fields.map Field.unlocked }

theorem name_unlocked (m : Model) : m.unlocked.name = m.name := rfl

theorem fields_unlocked (m : Model) : m.unlocked.fields = m.fields.map Field.unlocked := rfl

theorem ofValue_lock {raw : Value} (h : raw.Writable) (index : Nat) :
    (ofValue index raw.lock).map unlocked = (ofValue index raw).map unlocked := by
  cases raw with
  | map access entries =>
      have hfields : (Value.getD "fields" entries).Writable := Value.writable_getD _ h.2
      unfold ofValue
      simp only [Value.lock, Value.getD_lockEntries]
      cases Value.getD "name" entries with
      | text name =>
          dsimp only [Value.lock]
          by_cases hblank : name.isEmpty = true
          · rw [if_pos hblank, if_pos hblank]
          · rw [if_neg hblank, if_neg hblank]
            generalize Value.getD "fields" entries = fields at hfields ⊢
            cases fields with
            | list listAccess raws =>
                exact map_map_congr (k := Model.mk name) (Field.listOfValues_lock hfields.2 name 0)
                  fun _ => rfl
            | _ => rfl
      | _ => rfl
  | _ => rfl

theorem listOfValues_lock {raws : List Value} (h : Value.WritableItems raws) (index : Nat) :
    (listOfValues index (Value.lockItems raws)).map (List.map unlocked) =
      (listOfValues index raws).map (List.map unlocked) := by
  induction raws generalizing index with
  | nil => rfl
  | cons raw rest ih => exact map_cons_congr (ofValue_lock h.1 index) (ih h.2 (index + 1))

theorem listOfValue_lock {raw : Value} (h : raw.Writable) :
    (listOfValue raw.lock).map (List.map unlocked) =
      (listOfValue raw).map (List.map unlocked) := by
  cases raw with
  | list access raws => exact listOfValues_lock h.2 0
  | _ => rfl

end Model

end SchemaDocs
