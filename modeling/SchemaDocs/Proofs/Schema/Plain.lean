import SchemaDocs.Proofs.Schema.Model
import SchemaDocs.Proofs.Value.Plain
/-!
# Models of plain values

The names, types and relations of models that were made from a plain value come from its texts, and
a default is plain again once it is writable.

* `plain_of_listOfValue`: the models of a plain value are plain.
-/

namespace SchemaDocs

open Results
open Text (PairFree)

structure Field.Plain (f : Field) : Prop where
  name_ne_nil : f.name ≠ []
  type_ne_nil : f.type ≠ []
  name : PairFree f.name
  type : PairFree f.type
  default : f.default.unlock.Plain
  relation : ∀ r ∈ f.relation, PairFree r

structure Model.Plain (m : Model) : Prop where
  name_ne_nil : m.name ≠ []
  name : PairFree m.name
  fields : ∀ f ∈ m.fields, f.Plain

theorem Value.plain_getD (key : Text) {entries : List (Text × Value)}
    (h : PlainEntries entries) : (getD key entries).Plain := by
  unfold getD
  cases hvalue : valueAt? key entries with
  | none => trivial
  | some v => exact (plainEntries_iff.mp h _ (mem_of_valueAt? hvalue)).2

theorem Value.plain_under (key : Text) {v : Value} (hv : v.Plain) : (v.under key).Plain := by
  cases v with
  | map access entries => exact plain_getD key hv.2.2
  | _ => trivial

theorem Value.plain_of_mem_items {v w : Value} (hv : v.Plain) (hw : w ∈ v.items) : w.Plain := by
  cases v with
  | list access items => exact plainItems_iff.mp hv.2 w hw
  | _ => exact absurd hw List.not_mem_nil

theorem Value.pairFree_of_under {key t : Text} {v : Value} (hv : v.Plain)
    (h : v.under key = .text t) : PairFree t := by
  have hplain := plain_under key hv
  rwa [h] at hplain

namespace Field

theorem plain_unlock_lock {v : Value} (hv : v.Plain) : v.lock.unlock.Plain := by
  rwa [Value.unlock_lock_of_plain v hv]

theorem plain_defaultOfRaw {raw : Value} (hraw : raw.Plain) : (defaultOfRaw raw).unlock.Plain := by
  unfold defaultOfRaw
  split
  · split
    · next entries =>
        dsimp only
        split
        · have hname := Value.plain_getD "name" hraw.2.2
          rwa [Value.unlock_of_plain _ hname]
        · exact plain_unlock_lock hraw
    · exact plain_unlock_lock hraw
  · trivial

theorem pairFree_relationText {type : Text} (htype : PairFree type) :
    PairFree (relationText type) :=
  ((Text.surrogateFree_ofString "@relation(").append_pairFree htype).append_surrogateFree
    (Text.surrogateFree_ofString ")")

theorem Reads.plain {raw : Value} {f : Field} (h : Reads raw f) (hraw : raw.Plain) : f.Plain where
  name_ne_nil := h.name_ne_nil
  type_ne_nil := h.type_ne_nil
  name := Value.pairFree_of_under hraw h.name
  type := Value.pairFree_of_under hraw h.type
  default := by
    rw [h.default]
    exact plain_defaultOfRaw (Value.plain_under _ hraw)
  relation := by
    intro r hr
    rw [h.relation] at hr
    split at hr
    · cases hr
      exact pairFree_relationText (Value.pairFree_of_under hraw h.type)
    · cases hr

end Field

namespace Model

theorem Reads.plain {raw : Value} {m : Model} (h : Reads raw m) (hraw : raw.Plain) : m.Plain where
  name_ne_nil := h.name_ne_nil
  name := Value.pairFree_of_under hraw h.name
  fields := by
    intro f hf
    obtain ⟨rawField, hmem, hreads⟩ := exists_of_mem_right h.fields hf
    exact hreads.plain (Value.plain_of_mem_items (Value.plain_under _ hraw) hmem)

theorem plain_of_listOfValue {raw : Value} {models : List Model} (hraw : raw.Plain)
    (h : listOfValue raw = .ok models) : ∀ m ∈ models, m.Plain := by
  intro m hm
  obtain ⟨rawModel, hmem, hreads⟩ := exists_of_mem_right (listOfValue_eq_ok.mp h).2 hm
  exact hreads.plain (Value.plain_of_mem_items hraw hmem)

end Model

end SchemaDocs
