import Mathlib.Data.List.Nodup
import SchemaDocs.Entries
/-!
# Entries

Entries that come from pairs have distinct keys, pairs with distinct keys are kept as they are, and
sorting by keys only changes the order.
-/

namespace SchemaDocs

variable {α : Type}

/-! ## Inserting -/

theorem insertEntry_of_notMem {key : Text} {value : α} {entries : List (Text × α)}
    (hkey : key ∉ entries.map Prod.fst) :
    insertEntry key value entries = entries ++ [(key, value)] := by
  induction entries with
  | nil => rfl
  | cons e rest ih =>
      rw [List.map_cons, List.mem_cons, not_or] at hkey
      rw [insertEntry, if_neg (Ne.symm hkey.1), ih hkey.2, List.cons_append]

theorem keys_insertEntry_of_mem {key : Text} {value : α} {entries : List (Text × α)}
    (hkey : key ∈ entries.map Prod.fst) :
    (insertEntry key value entries).map Prod.fst = entries.map Prod.fst := by
  induction entries with
  | nil => exact absurd hkey List.not_mem_nil
  | cons e rest ih =>
      rw [insertEntry]
      split
      · next heq => rw [List.map_cons, List.map_cons, heq]
      · next hne =>
          rw [List.map_cons, List.mem_cons] at hkey
          rw [List.map_cons, List.map_cons, ih (hkey.resolve_left (Ne.symm hne))]

theorem nodup_keys_insertEntry (key : Text) (value : α) {entries : List (Text × α)}
    (h : (entries.map Prod.fst).Nodup) : ((insertEntry key value entries).map Prod.fst).Nodup := by
  by_cases hkey : key ∈ entries.map Prod.fst
  · rwa [keys_insertEntry_of_mem hkey]
  · rw [insertEntry_of_notMem hkey, List.map_append]
    refine List.nodup_append.mpr ⟨h, List.nodup_singleton key, ?_⟩
    intro a ha b hb hab
    rw [hab, List.mem_singleton.mp hb] at ha
    exact hkey ha

theorem mem_insertEntry {key : Text} {value : α} {entries : List (Text × α)} {e : Text × α}
    (he : e ∈ insertEntry key value entries) : e = (key, value) ∨ e ∈ entries := by
  induction entries with
  | nil => exact .inl (List.mem_singleton.mp he)
  | cons head rest ih =>
      rw [insertEntry] at he
      split at he
      · rcases List.mem_cons.mp he with h | h
        · exact .inl h
        · exact .inr (List.mem_cons_of_mem head h)
      · rcases List.mem_cons.mp he with h | h
        · exact .inr (List.mem_cons.mpr (.inl h))
        · exact (ih h).imp_right (List.mem_cons_of_mem head)

/-! ## Pairs -/

theorem nodup_keys_entriesOfPairs (pairs : List (Text × α)) :
    ((entriesOfPairs pairs).map Prod.fst).Nodup := by
  have hfold : ∀ entries : List (Text × α), (entries.map Prod.fst).Nodup →
      ((pairs.foldl (fun entries e => insertEntry e.1 e.2 entries) entries).map
        Prod.fst).Nodup := by
    induction pairs with
    | nil => exact fun _ h => h
    | cons e rest ih => exact fun entries h => ih _ (nodup_keys_insertEntry e.1 e.2 h)
  exact hfold [] List.nodup_nil

theorem mem_of_mem_entriesOfPairs {pairs : List (Text × α)} {e : Text × α}
    (he : e ∈ entriesOfPairs pairs) : e ∈ pairs := by
  have hfold : ∀ entries : List (Text × α),
      e ∈ pairs.foldl (fun entries e => insertEntry e.1 e.2 entries) entries →
      e ∈ entries ∨ e ∈ pairs := by
    clear he
    induction pairs with
    | nil => exact fun _ h => .inl h
    | cons head rest ih =>
        intro entries h
        rcases ih _ h with hmem | hmem
        · rcases mem_insertEntry hmem with heq | hin
          · exact .inr (List.mem_cons.mpr (.inl heq))
          · exact .inl hin
        · exact .inr (List.mem_cons_of_mem head hmem)
  exact (hfold [] he).resolve_left List.not_mem_nil

theorem entriesOfPairs_of_nodup {pairs : List (Text × α)} (h : (pairs.map Prod.fst).Nodup) :
    entriesOfPairs pairs = pairs := by
  have hfold : ∀ entries : List (Text × α), ((entries ++ pairs).map Prod.fst).Nodup →
      pairs.foldl (fun entries e => insertEntry e.1 e.2 entries) entries =
        entries ++ pairs := by
    clear h
    induction pairs with
    | nil => exact fun entries _ => (List.append_nil entries).symm
    | cons e rest ih =>
        intro entries hentries
        have hnew : e.1 ∉ entries.map Prod.fst := by
          rw [List.map_append, List.map_cons, List.nodup_append] at hentries
          exact fun hmem => hentries.2.2 _ hmem _ List.mem_cons_self rfl
        have hstep : entries ++ e :: rest = (entries ++ [(e.1, e.2)]) ++ rest := by simp
        rw [hstep] at hentries ⊢
        rw [List.foldl_cons, insertEntry_of_notMem hnew]
        exact ih _ hentries
  exact hfold [] h

/-! ## Looking up and sorting -/

theorem mem_of_valueAt? {key : Text} {value : α} {entries : List (Text × α)}
    (h : valueAt? key entries = some value) : (key, value) ∈ entries := by
  induction entries with
  | nil => cases h
  | cons e rest ih =>
      rw [valueAt?] at h
      split at h
      · next heq =>
          cases h
          rw [← heq]
          exact List.mem_cons_self
      · exact List.mem_cons_of_mem e (ih h)

theorem insertByKey_perm (e : Text × α) (entries : List (Text × α)) :
    (insertByKey e entries).Perm (e :: entries) := by
  induction entries with
  | nil => exact .refl _
  | cons head rest ih =>
      rw [insertByKey]
      split
      · exact .refl _
      · exact (ih.cons head).trans (.swap e head rest)

theorem sortByKey_perm (entries : List (Text × α)) : (sortByKey entries).Perm entries := by
  induction entries with
  | nil => exact .refl _
  | cons e rest ih => exact (insertByKey_perm e _).trans (ih.cons e)

end SchemaDocs
