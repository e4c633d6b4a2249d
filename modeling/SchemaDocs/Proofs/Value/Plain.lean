import SchemaDocs.Proofs.Json.RoundTrip
import SchemaDocs.Proofs.Json.Tidy
import SchemaDocs.Proofs.Number.Literal
import SchemaDocs.Proofs.Value.Writable
/-!
# Plain values

The values of documents that were read: their containers are writable, and they hold nothing that a
document cannot express.  Such a value is its own writable form, also after it was made read-only.

* `plain_ofJson`: the value of a tidy document is plain if no two code points would be joined in it.
-/

namespace SchemaDocs

/-! ## The strings of a document -/

namespace Json

mutual

def strings : Json → List Text
  | .null => []
  | .bool _ => []
  | .int _ => []
  | .real _ => []
  | .string t => [t]
  | .array items => stringsOfItems items
  | .object members => stringsOfMembers members

def stringsOfItems : List Json → List Text
  | [] => []
  | j :: rest => j.strings ++ stringsOfItems rest

def stringsOfMembers : List (Text × Json) → List Text
  | [] => []
  | (key, j) :: rest => key :: (j.strings ++ stringsOfMembers rest)

end

theorem readableMembers_iff {members : List (Text × Json)} :
    ReadableMembers members ↔ ∀ m ∈ members, m.1.PairFree ∧ Readable m.2 := by
  induction members with
  | nil => simp [ReadableMembers]
  | cons m rest ih => rw [ReadableMembers, ih, List.forall_mem_cons, and_assoc]

end Json

namespace Value

open Results
open Text (PairFree)

mutual

/-- Whether a value stands for a document: its containers are writable, its maps have distinct keys,
no whole number is too long, no two code points of a text would be joined, and nothing in it is
foreign. -/
def Plain : Value → Prop
  | .null => True
  | .bool _ => True
  | .int n => (Text.ofNat n.natAbs).length ≤ Json.maxDigits
  | .float _ => True
  | .text t => PairFree t
  | .list access items => access = .writable ∧ PlainItems items
  | .map access entries => access = .writable ∧ (entries.map Prod.fst).Nodup ∧ PlainEntries entries
  | .foreign _ => False

def PlainItems : List Value → Prop
  | [] => True
  | v :: rest => v.Plain ∧ PlainItems rest

def PlainEntries : List (Text × Value) → Prop
  | [] => True
  | (key, v) :: rest => PairFree key ∧ v.Plain ∧ PlainEntries rest

end

theorem plainItems_iff {items : List Value} : PlainItems items ↔ ∀ v ∈ items, v.Plain := by
  induction items with
  | nil => simp [PlainItems]
  | cons v rest ih => rw [PlainItems, ih, List.forall_mem_cons]

theorem plainEntries_iff {entries : List (Text × Value)} :
    PlainEntries entries ↔ ∀ e ∈ entries, PairFree e.1 ∧ e.2.Plain := by
  induction entries with
  | nil => simp [PlainEntries]
  | cons e rest ih => rw [PlainEntries, ih, List.forall_mem_cons, and_assoc]

/-! ## Values of documents -/

theorem keys_ofJsonMembers (members : List (Text × Json)) :
    (ofJsonMembers members).map Prod.fst = members.map Prod.fst := by
  induction members with
  | nil => rfl
  | cons m rest ih => rw [ofJsonMembers, List.map_cons, List.map_cons, ih]

mutual

theorem plain_ofJson : ∀ j : Json, j.Tidy → (∀ t ∈ j.strings, PairFree t) → (ofJson j).Plain
  | .null, _, _ | .bool _, _, _ | .real _, _, _ => trivial
  | .int _, hj, _ => hj
  | .string t, _, hstrings => hstrings t List.mem_cons_self
  | .array items, hj, hstrings => ⟨rfl, plainItems_ofJsonItems items hj hstrings⟩
  | .object members, hj, hstrings => by
      refine ⟨rfl, ?_, plainEntries_ofJsonMembers members hj.2 hstrings⟩
      rw [keys_ofJsonMembers]
      exact hj.1

theorem plainItems_ofJsonItems : ∀ items : List Json, Json.TidyItems items →
    (∀ t ∈ Json.stringsOfItems items, PairFree t) → PlainItems (ofJsonItems items)
  | [], _, _ => trivial
  | j :: rest, hj, hstrings => by
      obtain ⟨hfirst, hrest⟩ := List.forall_mem_append.mp hstrings
      exact ⟨plain_ofJson j hj.1 hfirst, plainItems_ofJsonItems rest hj.2 hrest⟩

theorem plainEntries_ofJsonMembers : ∀ members : List (Text × Json), Json.TidyMembers members →
    (∀ t ∈ Json.stringsOfMembers members, PairFree t) → PlainEntries (ofJsonMembers members)
  | [], _, _ => trivial
  | (key, j) :: rest, hj, hstrings => by
      obtain ⟨hkey, hstrings⟩ := List.forall_mem_cons.mp hstrings
      obtain ⟨hfirst, hrest⟩ := List.forall_mem_append.mp hstrings
      exact ⟨hkey, plain_ofJson j hj.1 hfirst, plainEntries_ofJsonMembers rest hj.2 hrest⟩

end

/-! ## Access -/

mutual

theorem writable_of_plain : ∀ v : Value, v.Plain → v.Writable
  | .null, _ | .bool _, _ | .int _, _ | .float _, _ | .text _, _ => trivial
  | .list _ items, h => ⟨h.1, writableItems_of_plain items h.2⟩
  | .map _ entries, h => ⟨h.1, writableEntries_of_plain entries h.2.2⟩

theorem writableItems_of_plain : ∀ items : List Value, PlainItems items → WritableItems items
  | [], _ => trivial
  | v :: rest, h => ⟨writable_of_plain v h.1, writableItems_of_plain rest h.2⟩

theorem writableEntries_of_plain : ∀ entries : List (Text × Value), PlainEntries entries →
    WritableEntries entries
  | [], _ => trivial
  | (_, v) :: rest, h => ⟨writable_of_plain v h.2.1, writableEntries_of_plain rest h.2.2⟩

end

theorem unlock_of_plain (v : Value) (h : v.Plain) : v.unlock = v :=
  unlock_of_writable v (writable_of_plain v h)

theorem unlock_lock_of_plain (v : Value) (h : v.Plain) : v.lock.unlock = v :=
  unlock_lock_of_writable v (writable_of_plain v h)

end Value

end SchemaDocs
