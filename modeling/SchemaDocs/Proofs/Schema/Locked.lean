import SchemaDocs.Proofs.Schema.Model
import SchemaDocs.Proofs.Value.Locked
/-!
# Read-only defaults

A default is read-only at every depth, with one exception.  The name of a function descriptor takes
the place of the descriptor, and it is taken as it is, so a name that is a writable container stays
one.

* `locked_default_iff`: which defaults of the models of a raw value are read-only;
* `exists_writable_default`: one that is not.
-/

namespace SchemaDocs

namespace Field

def functionName? : Value → Option Value
  | .map _ entries =>
    let name := Value.getD "name" entries
    if name.isPresent then some name else none
  | _ => none

theorem isPresent_of_functionName? {raw name : Value} (h : functionName? raw = some name) :
    raw.isPresent = true := by
  cases raw with
  | map access entries =>
      cases entries with
      | nil => cases h
      | cons e rest => rfl
  | _ => cases h

theorem defaultOfRaw_of_functionName? {raw name : Value} (h : functionName? raw = some name) :
    defaultOfRaw raw = name := by
  unfold defaultOfRaw
  rw [if_pos (isPresent_of_functionName? h)]
  cases raw with
  | map access entries =>
      unfold functionName? at h
      dsimp only at h ⊢
      split at h
      · next hname =>
          cases h
          rw [if_pos hname]
      · cases h
  | _ => cases h

theorem locked_defaultOfRaw_of_none {raw : Value} (h : functionName? raw = none) :
    (defaultOfRaw raw).Locked := by
  unfold defaultOfRaw
  split
  · split
    · next access entries =>
        unfold functionName? at h
        dsimp only at h ⊢
        split at h
        · cases h
        · next hname =>
            rw [if_neg hname]
            exact Value.locked_lock _
    · exact Value.locked_lock raw
  · trivial

theorem locked_defaultOfRaw_iff (raw : Value) :
    (defaultOfRaw raw).Locked ↔ ∀ name ∈ functionName? raw, name.Locked := by
  cases h : functionName? raw with
  | none => simp [locked_defaultOfRaw_of_none h]
  | some name => simp [defaultOfRaw_of_functionName? h]

end Field

namespace Model

/-- The default of a field is read-only at every depth, unless the raw default is a function
descriptor whose name is not. -/
theorem locked_default_iff {raw : Value} {models : List Model} (h : listOfValue raw = .ok models) :
    List.Forall₂ (fun rawModel m =>
      List.Forall₂ (fun rawField f =>
        f.default.Locked ↔
          ∀ name ∈ Field.functionName? (rawField.under "default"), name.Locked)
        (rawModel.under "fields").items m.fields) raw.items models := by
  obtain ⟨-, hmodels⟩ := listOfValue_eq_ok.mp h
  refine hmodels.imp fun rawModel m hm => ?_
  refine hm.fields.imp fun rawField f hf => ?_
  rw [hf.default]
  exact Field.locked_defaultOfRaw_iff _

/-- A schema with a list as a default, and the same list as the name of a function. -/
def functionSchema : Value :=
  .list .writable [.map .writable [("name", .text "M"), ("fields", .list .writable [
    .map .writable [("name", .text "plain"), ("type", .text "T"),
      ("default", .list .writable [.list .writable [.int 1]])],
    .map .writable [("name", .text "named"), ("type", .text "T"),
      ("default", .map .writable [("name", .list .writable [.list .writable [.int 1]])])]])]]

theorem locked_default_iff_functionSchema :
    ∃ models, listOfValue functionSchema = .ok models ∧
      List.Forall₂ (fun rawModel m =>
        List.Forall₂ (fun rawField f =>
          f.default.Locked ↔
            ∀ name ∈ Field.functionName? (rawField.under "default"), name.Locked)
          (rawModel.under "fields").items m.fields) functionSchema.items models :=
  ⟨_, rfl, locked_default_iff rfl⟩

/-- The second default is a writable list. -/
theorem exists_writable_default :
    ∃ models, listOfValue functionSchema = .ok models ∧
      ∃ m ∈ models, ∃ f ∈ m.fields, ¬ f.default.Locked := by
  refine ⟨_, rfl, _, List.mem_cons_self, _, List.mem_cons_of_mem _ List.mem_cons_self, ?_⟩
  rintro ⟨haccess, -⟩
  cases haccess

end Model

end SchemaDocs
