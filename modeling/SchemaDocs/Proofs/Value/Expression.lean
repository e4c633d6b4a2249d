import SchemaDocs.Proofs.Json.Printable
import SchemaDocs.Proofs.Value.Document
import SchemaDocs.Proofs.Value.Plain
/-!
# Documents that express values

A document expresses a value if it has the same scalars and items in the same places, and the same
members in any order.  A floating-point number is expressed by its literal.

* `exists_toJson?`: a plain value has a document, which expresses it and can be read back;
* `realLiterals_of_toJson?`: the numbers of a document that comes from a value have literals.
-/

namespace SchemaDocs.Value

open Text (PairFree)

mutual

/-- Whether a document says what a value says. -/
inductive IsExpressedBy : Value → Json → Prop where
  | null : IsExpressedBy .null .null
  | bool (b : Bool) : IsExpressedBy (.bool b) (.bool b)
  | int (n : Int) : IsExpressedBy (.int n) (.int n)
  | float (x : Binary64) : IsExpressedBy (.float x) (.real (x.text Binary64.jsonSpelling))
  | text (t : Text) : IsExpressedBy (.text t) (.string t)
  | list {access : Access} {items : List Value} {js : List Json}
      (hitems : ItemsExpressedBy items js) : IsExpressedBy (.list access items) (.array js)
  | map {access : Access} {entries : List (Text × Value)} {members ordered : List (Text × Json)}
      (hentries : EntriesExpressedBy entries ordered) (horder : members.Perm ordered) :
      IsExpressedBy (.map access entries) (.object members)

inductive ItemsExpressedBy : List Value → List Json → Prop where
  | nil : ItemsExpressedBy [] []
  | cons {v : Value} {j : Json} {items : List Value} {js : List Json} (hfirst : IsExpressedBy v j)
      (hrest : ItemsExpressedBy items js) : ItemsExpressedBy (v :: items) (j :: js)

inductive EntriesExpressedBy : List (Text × Value) → List (Text × Json) → Prop where
  | nil : EntriesExpressedBy [] []
  | cons {key : Text} {v : Value} {j : Json} {entries : List (Text × Value)}
      {members : List (Text × Json)} (hfirst : IsExpressedBy v j)
      (hrest : EntriesExpressedBy entries members) :
      EntriesExpressedBy ((key, v) :: entries) ((key, j) :: members)

end

theorem EntriesExpressedBy.keys_eq : ∀ {entries : List (Text × Value)}
    {members : List (Text × Json)}, EntriesExpressedBy entries members →
    members.map Prod.fst = entries.map Prod.fst
  | _, _, .nil => rfl
  | _, _, .cons _ hrest => by rw [List.map_cons, List.map_cons, hrest.keys_eq]

/-! ## The document of a value -/

theorem insertByKey_map {α β : Type} (f : α → β) (e : Text × α) (entries : List (Text × α)) :
    insertByKey (e.1, f e.2) (entries.map fun e => (e.1, f e.2)) =
      (insertByKey e entries).map fun e => (e.1, f e.2) := by
  induction entries with
  | nil => rfl
  | cons head rest ih =>
      rw [List.map_cons, insertByKey, insertByKey]
      split
      · rfl
      · rw [List.map_cons, ih]

theorem sortByKey_map {α β : Type} (f : α → β) (entries : List (Text × α)) :
    sortByKey (entries.map fun e => (e.1, f e.2)) =
      (sortByKey entries).map fun e => (e.1, f e.2) := by
  induction entries with
  | nil => rfl
  | cons e rest ih => rw [List.map_cons, sortByKey, ih, insertByKey_map, sortByKey]

theorem collect_map_ok {ε α : Type} (entries : List (Text × α)) :
    collect (entries.map fun e => (e.1, (.ok e.2 : Except ε α))) = .ok entries := by
  induction entries with
  | nil => rfl
  | cons e rest ih => rw [List.map_cons, collect, ih]; rfl

theorem toJson?_map {entries : List (Text × Value)} {members : List (Text × Json)}
    (h : toJsonMembers entries = members.map fun m => (m.1, .ok m.2)) :
    (Value.map .writable entries).toJson? = .ok (.object (sortByKey members)) := by
  rw [toJson?, h, sortByKey_map, collect_map_ok]
  rfl

mutual

theorem exists_toJson? : ∀ v : Value, v.Plain →
    ∃ j, v.toJson? = .ok j ∧ j.Readable ∧ v.IsExpressedBy j
  | .null, _ => ⟨.null, rfl, trivial, .null⟩
  | .bool b, _ => ⟨.bool b, rfl, trivial, .bool b⟩
  | .int n, hv => ⟨.int n, if_pos hv, hv, .int n⟩
  | .float x, _ => ⟨_, rfl, Binary64.isReal_text x, .float x⟩
  | .text t, hv => ⟨.string t, rfl, hv, .text t⟩
  | .list _ items, hv => by
      obtain ⟨js, hjs, hreadable, hexpressed⟩ := exists_toJsonItems items hv.2
      exact ⟨.array js, by rw [toJson?, hjs]; rfl, hreadable, .list hexpressed⟩
  | .map _ entries, ⟨rfl, hkeys, hentries⟩ => by
      obtain ⟨members, hmembers, hreadable, hexpressed⟩ := exists_toJsonMembers entries hentries
      have horder := sortByKey_perm members
      refine ⟨_, toJson?_map hmembers, ⟨?_, ?_⟩, .map hexpressed horder⟩
      · rw [(horder.map Prod.fst).nodup_iff, hexpressed.keys_eq]
        exact hkeys
      · rw [Json.readableMembers_iff] at hreadable ⊢
        exact fun m hm => hreadable m (horder.mem_iff.mp hm)

theorem exists_toJsonItems : ∀ items : List Value, PlainItems items →
    ∃ js, toJsonItems items = .ok js ∧ Json.ReadableItems js ∧ ItemsExpressedBy items js
  | [], _ => ⟨[], rfl, trivial, .nil⟩
  | v :: rest, hv => by
      obtain ⟨j, hj, hreadable, hexpressed⟩ := exists_toJson? v hv.1
      obtain ⟨js, hjs, hreadables, hrest⟩ := exists_toJsonItems rest hv.2
      refine ⟨j :: js, ?_, ⟨hreadable, hreadables⟩, .cons hexpressed hrest⟩
      rw [toJsonItems, hj, hjs]
      rfl

theorem exists_toJsonMembers : ∀ entries : List (Text × Value), PlainEntries entries →
    ∃ members, toJsonMembers entries = members.map (fun m => (m.1, .ok m.2)) ∧
      Json.ReadableMembers members ∧ EntriesExpressedBy entries members
  | [], _ => ⟨[], rfl, trivial, .nil⟩
  | (key, v) :: rest, hv => by
      obtain ⟨j, hj, hreadable, hexpressed⟩ := exists_toJson? v hv.2.1
      obtain ⟨members, hmembers, hreadables, hrest⟩ := exists_toJsonMembers rest hv.2.2
      refine ⟨(key, j) :: members, ?_, ⟨hv.1, hreadable, hreadables⟩, .cons hexpressed hrest⟩
      rw [toJsonMembers, hj, hmembers]
      rfl

end

/-! ## Literals in the document of a value -/

mutual

theorem realLiterals_of_toJson? : ∀ (v : Value) {j : Json}, v.toJson? = .ok j → j.RealLiterals
  | .null, _, h | .bool _, _, h | .text _, _, h => by
      cases h
      trivial
  | .int _, _, h => by
      rw [toJson?] at h
      split at h
      · cases h
        trivial
      · cases h
  | .float x, _, h => by
      cases h
      exact Binary64.isReal_text x
  | .list _ items, _, h => by
      obtain ⟨js, hjs, rfl⟩ := Results.map_eq_ok.mp h
      exact realLiterals_of_toJsonItems items hjs
  | .map .writable entries, _, h => by
      obtain ⟨members, hmembers, rfl⟩ := Results.map_eq_ok.mp h
      refine Json.realLiteralsMembers_iff.mpr fun m hm => ?_
      exact realLiterals_of_toJsonMembers entries
        ((sortByKey_perm _).mem_iff.mp (mem_of_collect hmembers hm))

theorem realLiterals_of_toJsonItems : ∀ (items : List Value) {js : List Json},
    toJsonItems items = .ok js → Json.RealLiteralsItems js
  | [], _, h => by
      cases h
      trivial
  | v :: rest, _, h => by
      obtain ⟨j, js, hj, hjs, rfl⟩ := Results.cons_eq_ok.mp h
      exact ⟨realLiterals_of_toJson? v hj, realLiterals_of_toJsonItems rest hjs⟩

theorem realLiterals_of_toJsonMembers : ∀ (entries : List (Text × Value)) {key : Text} {j : Json},
    (key, .ok j) ∈ toJsonMembers entries → j.RealLiterals
  | (_, v) :: rest, _, _, h => by
      rcases List.mem_cons.mp h with heq | h
      · exact realLiterals_of_toJson? v (Prod.mk.inj heq).2.symm
      · exact realLiterals_of_toJsonMembers rest h

end

end SchemaDocs.Value
