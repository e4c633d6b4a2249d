import SchemaDocs.Proofs.Entries
import SchemaDocs.Proofs.Results
import SchemaDocs.Value.Literal
/-!
# Values with a document

A list has a JSON document exactly if all its items have one, and a map that may be changed exactly
if all its values have one.  A value keeps its document when it is made writable, also after it was
made read-only, and it has a literal then.  A value with a document or a literal has no whole number
that is too long, so where such a value has no document, it is for something that JSON has no form
for.

* `hasDocument_list_iff`, `hasDocument_map_iff`: which containers have a document;
* `exists_literal_of_hasDocument`: a value with a document has a literal;
* `toJson?_ne_longInteger`: what a value with short numbers cannot fail for.
-/

namespace SchemaDocs.Value

open Results

/-! ## Collecting results -/

section Collect

variable {ε α : Type} {results : List (Text × Except ε α)}

theorem mem_of_collect {xs : List (Text × α)} (h : collect results = .ok xs) {x : Text × α}
    (hx : x ∈ xs) : (x.1, .ok x.2) ∈ results := by
  induction results generalizing xs with
  | nil =>
      cases h
      exact absurd hx List.not_mem_nil
  | cons r rest ih =>
      obtain ⟨y, hy, h⟩ := bind_eq_ok.mp h
      obtain ⟨ys, hys, h⟩ := bind_eq_ok.mp h
      cases h
      rcases List.mem_cons.mp hx with rfl | hx
      · rw [← hy]
        exact List.mem_cons_self
      · exact List.mem_cons_of_mem _ (ih hys hx)

theorem exists_collect_eq_ok_iff :
    (∃ xs, collect results = .ok xs) ↔ ∀ r ∈ results, ∃ x, r.2 = .ok x := by
  induction results with
  | nil => exact iff_of_true ⟨[], rfl⟩ (List.forall_mem_nil _)
  | cons r rest ih =>
      rw [List.forall_mem_cons, ← ih]
      constructor
      · rintro ⟨xs, h⟩
        obtain ⟨x, hx, h⟩ := bind_eq_ok.mp h
        obtain ⟨ys, hys, -⟩ := bind_eq_ok.mp h
        exact ⟨⟨x, hx⟩, ys, hys⟩
      · rintro ⟨⟨x, hx⟩, ys, hys⟩
        exact ⟨(r.1, x) :: ys, bind_eq_ok.mpr ⟨x, hx, bind_eq_ok.mpr ⟨ys, hys, rfl⟩⟩⟩

theorem mem_of_collect_eq_error {e : ε} (h : collect results = .error e) :
    ∃ r ∈ results, r.2 = .error e := by
  induction results with
  | nil => cases h
  | cons r rest ih =>
      rcases bind_eq_error.mp h with hfirst | ⟨x, -, h⟩
      · exact ⟨r, List.mem_cons_self, hfirst⟩
      · rcases bind_eq_error.mp h with hrest | ⟨xs, -, hend⟩
        · obtain ⟨s, hs, he⟩ := ih hrest
          exact ⟨s, List.mem_cons_of_mem r hs, he⟩
        · cases hend

end Collect

/-! ## Containers with a document -/

def HasDocument (v : Value) : Prop :=
  ∃ j, v.toJson? = .ok j

theorem toJsonItems_eq_mapM (items : List Value) : toJsonItems items = items.mapM toJson? := by
  induction items with
  | nil => rfl
  | cons v rest ih => rw [toJsonItems, List.mapM_cons, ih]

theorem toJsonMembers_eq_map (entries : List (Text × Value)) :
    toJsonMembers entries = entries.map fun e => (e.1, e.2.toJson?) := by
  induction entries with
  | nil => rfl
  | cons e rest ih => rw [toJsonMembers, List.map_cons, ih]

theorem hasDocument_list_iff {access : Access} {items : List Value} :
    (list access items).HasDocument ↔ ∀ v ∈ items, v.HasDocument := by
  constructor
  · rintro ⟨j, h⟩ v hv
    obtain ⟨js, hjs, -⟩ := map_eq_ok.mp h
    rw [toJsonItems_eq_mapM, mapM_eq_ok] at hjs
    obtain ⟨k, -, hk⟩ := exists_of_mem_left hjs hv
    exact ⟨k, hk⟩
  · intro h
    obtain ⟨js, hjs⟩ := exists_mapM_eq_ok h
    exact ⟨.array js, map_eq_ok.mpr ⟨js, by rw [toJsonItems_eq_mapM, hjs], rfl⟩⟩

theorem exists_collect_toJsonMembers_iff {entries : List (Text × Value)} :
    (∃ members, collect (sortByKey (toJsonMembers entries)) = .ok members) ↔
      ∀ e ∈ entries, e.2.HasDocument := by
  rw [exists_collect_eq_ok_iff]
  simp only [(sortByKey_perm _).mem_iff, toJsonMembers_eq_map, List.forall_mem_map]
  rfl

theorem hasDocument_map_iff {entries : List (Text × Value)} :
    (map .writable entries).HasDocument ↔ ∀ e ∈ entries, e.2.HasDocument := by
  rw [← exists_collect_toJsonMembers_iff]
  constructor
  · rintro ⟨j, h⟩
    obtain ⟨members, hmembers, -⟩ := map_eq_ok.mp h
    exact ⟨members, hmembers⟩
  · rintro ⟨members, hmembers⟩
    exact ⟨.object members, map_eq_ok.mpr ⟨members, hmembers, rfl⟩⟩

/-! ## Access -/

mutual

theorem hasDocument_unlock : ∀ v : Value, v.HasDocument → v.unlock.HasDocument
  | .null, h | .bool _, h | .int _, h | .float _, h | .text _, h | .foreign _, h
  | .list .writable _, h => h
  | .list .readOnly items, h =>
    hasDocument_list_iff.mpr (hasDocument_unlockItems items (hasDocument_list_iff.mp h))
  | .map .writable entries, h =>
    hasDocument_map_iff.mpr (hasDocument_unlockEntries entries (hasDocument_map_iff.mp h))
  | .map .readOnly _, ⟨_, h⟩ => nomatch h

theorem hasDocument_unlockItems : ∀ items : List Value, (∀ v ∈ items, v.HasDocument) →
    ∀ v ∈ unlockItems items, v.HasDocument
  | [], h => h
  | v :: rest, h =>
    have h := List.forall_mem_cons.mp h
    List.forall_mem_cons.mpr ⟨hasDocument_unlock v h.1, hasDocument_unlockItems rest h.2⟩

theorem hasDocument_unlockEntries : ∀ entries : List (Text × Value),
    (∀ e ∈ entries, e.2.HasDocument) → ∀ e ∈ unlockEntries entries, e.2.HasDocument
  | [], _ => List.forall_mem_nil _
  | (_, v) :: rest, h =>
    have h := List.forall_mem_cons.mp h
    List.forall_mem_cons.mpr ⟨hasDocument_unlock v h.1, hasDocument_unlockEntries rest h.2⟩

end

mutual

theorem hasDocument_unlock_lock : ∀ v : Value, v.HasDocument → v.lock.unlock.HasDocument
  | .null, h | .bool _, h | .int _, h | .float _, h | .text _, h | .foreign _, h => h
  | .list _ items, h =>
    hasDocument_list_iff.mpr (hasDocument_unlockItems_lockItems items (hasDocument_list_iff.mp h))
  | .map .writable entries, h =>
    hasDocument_map_iff.mpr
      (hasDocument_unlockEntries_lockEntries entries (hasDocument_map_iff.mp h))
  | .map .readOnly _, ⟨_, h⟩ => nomatch h

theorem hasDocument_unlockItems_lockItems : ∀ items : List Value, (∀ v ∈ items, v.HasDocument) →
    ∀ v ∈ unlockItems (lockItems items), v.HasDocument
  | [], h => h
  | v :: rest, h =>
    have h := List.forall_mem_cons.mp h
    List.forall_mem_cons.mpr
      ⟨hasDocument_unlock_lock v h.1, hasDocument_unlockItems_lockItems rest h.2⟩

theorem hasDocument_unlockEntries_lockEntries : ∀ entries : List (Text × Value),
    (∀ e ∈ entries, e.2.HasDocument) →
    ∀ e ∈ unlockEntries (lockEntries entries), e.2.HasDocument
  | [], _ => List.forall_mem_nil _
  | (_, v) :: rest, h =>
    have h := List.forall_mem_cons.mp h
    List.forall_mem_cons.mpr
      ⟨hasDocument_unlock_lock v h.1, hasDocument_unlockEntries_lockEntries rest h.2⟩

end

/-! ## Literals -/

theorem exists_itemLiterals_iff {items : List Value} :
    (∃ ls, itemLiterals items = .ok ls) ↔ ∀ v ∈ items, ∃ l, v.literal = .ok l := by
  have hmapM : itemLiterals items = items.mapM literal := by
    induction items with
    | nil => rfl
    | cons v rest ih => rw [itemLiterals, List.mapM_cons, ih]
  rw [hmapM]
  constructor
  · rintro ⟨ls, h⟩ v hv
    obtain ⟨l, -, hl⟩ := exists_of_mem_left (mapM_eq_ok.mp h) hv
    exact ⟨l, hl⟩
  · exact exists_mapM_eq_ok

mutual

theorem exists_literal_of_hasDocument : ∀ v : Value, v.HasDocument → ∃ l, v.literal = .ok l
  | .null, _ | .bool _, _ | .float _, _ | .text _, _ | .foreign _, _ => ⟨_, rfl⟩
  | .int n, ⟨j, h⟩ => by
      rw [toJson?] at h
      split at h
      · next hshort => exact ⟨Text.ofInt n, if_pos hshort⟩
      · cases h
  | .list _ items, h => by
      obtain ⟨ls, hls⟩ := exists_itemLiterals_iff.mpr
        (exists_literal_of_hasDocument_items items (hasDocument_list_iff.mp h))
      exact ⟨_, map_eq_ok.mpr ⟨ls, hls, rfl⟩⟩
  | .map access entries, h => by
      obtain ⟨j, hj⟩ := hasDocument_unlock (.map access entries) h
      exact ⟨j.text, map_eq_ok.mpr ⟨j, hj, rfl⟩⟩

theorem exists_literal_of_hasDocument_items : ∀ items : List Value,
    (∀ v ∈ items, v.HasDocument) → ∀ v ∈ items, ∃ l, v.literal = .ok l
  | [], _ => List.forall_mem_nil _
  | v :: rest, h =>
    have h := List.forall_mem_cons.mp h
    List.forall_mem_cons.mpr
      ⟨exists_literal_of_hasDocument v h.1, exists_literal_of_hasDocument_items rest h.2⟩

end

/-! ## Whole numbers -/

mutual

def ShortIntegers : Value → Prop
  | .int n => (Text.ofNat n.natAbs).length ≤ Json.maxDigits
  | .list _ items => ShortIntegersItems items
  | .map _ entries => ShortIntegersEntries entries
  | _ => True

def ShortIntegersItems : List Value → Prop
  | [] => True
  | v :: rest => v.ShortIntegers ∧ ShortIntegersItems rest

def ShortIntegersEntries : List (Text × Value) → Prop
  | [] => True
  | (_, v) :: rest => v.ShortIntegers ∧ ShortIntegersEntries rest

end

mutual

theorem shortIntegers_unlock_iff : ∀ v : Value, v.unlock.ShortIntegers ↔ v.ShortIntegers
  | .null | .bool _ | .int _ | .float _ | .text _ | .foreign _ | .list .writable _ => .rfl
  | .list .readOnly items => shortIntegersItems_unlockItems_iff items
  | .map _ entries => shortIntegersEntries_unlockEntries_iff entries

theorem shortIntegersItems_unlockItems_iff : ∀ items : List Value,
    ShortIntegersItems (unlockItems items) ↔ ShortIntegersItems items
  | [] => .rfl
  | v :: rest =>
    and_congr (shortIntegers_unlock_iff v) (shortIntegersItems_unlockItems_iff rest)

theorem shortIntegersEntries_unlockEntries_iff : ∀ entries : List (Text × Value),
    ShortIntegersEntries (unlockEntries entries) ↔ ShortIntegersEntries entries
  | [] => .rfl
  | (_, v) :: rest =>
    and_congr (shortIntegers_unlock_iff v) (shortIntegersEntries_unlockEntries_iff rest)

end

mutual

theorem shortIntegers_of_hasDocument : ∀ v : Value, v.HasDocument → v.ShortIntegers
  | .null, _ | .bool _, _ | .float _, _ | .text _, _ | .foreign _, _ => trivial
  | .int n, ⟨j, h⟩ => by
      rw [toJson?] at h
      split at h
      · next hshort => exact hshort
      · cases h
  | .list _ items, h => shortIntegersItems_of_hasDocument items (hasDocument_list_iff.mp h)
  | .map .writable entries, h =>
    shortIntegersEntries_of_hasDocument entries (hasDocument_map_iff.mp h)
  | .map .readOnly _, ⟨_, h⟩ => nomatch h

theorem shortIntegersItems_of_hasDocument : ∀ items : List Value,
    (∀ v ∈ items, v.HasDocument) → ShortIntegersItems items
  | [], _ => trivial
  | v :: rest, h =>
    have h := List.forall_mem_cons.mp h
    ⟨shortIntegers_of_hasDocument v h.1, shortIntegersItems_of_hasDocument rest h.2⟩

theorem shortIntegersEntries_of_hasDocument : ∀ entries : List (Text × Value),
    (∀ e ∈ entries, e.2.HasDocument) → ShortIntegersEntries entries
  | [], _ => trivial
  | (_, v) :: rest, h =>
    have h := List.forall_mem_cons.mp h
    ⟨shortIntegers_of_hasDocument v h.1, shortIntegersEntries_of_hasDocument rest h.2⟩

end

mutual

theorem shortIntegers_of_literal : ∀ (v : Value) {l : Text}, v.literal = .ok l → v.ShortIntegers
  | .null, _, _ | .bool _, _, _ | .float _, _, _ | .text _, _, _ | .foreign _, _, _ => trivial
  | .int n, _, h => by
      rw [literal] at h
      split at h
      · next hshort => exact hshort
      · cases h
  | .list _ items, _, h => by
      obtain ⟨ls, hls, -⟩ := map_eq_ok.mp h
      exact shortIntegersItems_of_itemLiterals items hls
  | .map access entries, _, h => by
      obtain ⟨j, hj, -⟩ := map_eq_ok.mp h
      exact (shortIntegers_unlock_iff _).mp (shortIntegers_of_hasDocument _ ⟨j, hj⟩)

theorem shortIntegersItems_of_itemLiterals : ∀ (items : List Value) {ls : List Text},
    itemLiterals items = .ok ls → ShortIntegersItems items
  | [], _, _ => trivial
  | v :: rest, _, h => by
      obtain ⟨l, ls, hl, hls, rfl⟩ := cons_eq_ok.mp h
      exact ⟨shortIntegers_of_literal v hl, shortIntegersItems_of_itemLiterals rest hls⟩

end

mutual

theorem toJson?_ne_longInteger : ∀ v : Value, v.ShortIntegers → v.toJson? ≠ .error .longInteger
  | .null, _ | .bool _, _ | .float _, _ | .text _, _ | .foreign _, _ | .map .readOnly _, _ => nofun
  | .int n, hv => by
      rw [ShortIntegers] at hv
      rw [toJson?, if_pos hv]
      exact nofun
  | .list _ items, hv => fun h => toJsonItems_ne_longInteger items hv (map_eq_error.mp h)
  | .map .writable entries, hv => fun h => by
      obtain ⟨r, hr, he⟩ := mem_of_collect_eq_error (map_eq_error.mp h)
      exact toJsonMembers_ne_longInteger entries hv r ((sortByKey_perm _).mem_iff.mp hr) he

theorem toJsonItems_ne_longInteger : ∀ items : List Value, ShortIntegersItems items →
    toJsonItems items ≠ .error .longInteger
  | [], _ => nofun
  | v :: rest, hv => fun h => by
      rcases bind_eq_error.mp h with hfirst | ⟨j, -, h⟩
      · exact toJson?_ne_longInteger v hv.1 hfirst
      · rcases bind_eq_error.mp h with hrest | ⟨js, -, hend⟩
        · exact toJsonItems_ne_longInteger rest hv.2 hrest
        · cases hend

theorem toJsonMembers_ne_longInteger : ∀ entries : List (Text × Value),
    ShortIntegersEntries entries → ∀ r ∈ toJsonMembers entries, r.2 ≠ .error .longInteger
  | [], _ => List.forall_mem_nil _
  | (_, v) :: rest, hv => List.forall_mem_cons.mpr
    ⟨toJson?_ne_longInteger v hv.1, toJsonMembers_ne_longInteger rest hv.2⟩

end

end SchemaDocs.Value
