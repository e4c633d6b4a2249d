import SchemaDocs.Proofs.Entries
import SchemaDocs.Proofs.Json.Number
import SchemaDocs.Proofs.Results
/-!
# Documents that were read

Whatever text the reader takes, the objects of the document have distinct names, and its whole
numbers have no more digits than the reader allows.

* `tidy_of_read`: what was read is tidy.
-/

namespace SchemaDocs.Json

open Results

mutual

/-- Names are distinct in every object, and no whole number is too long. -/
def Tidy : Json → Prop
  | .null => True
  | .bool _ => True
  | .int n => (Text.ofNat n.natAbs).length ≤ maxDigits
  | .real _ => True
  | .string _ => True
  | .array items => TidyItems items
  | .object members => (members.map Prod.fst).Nodup ∧ TidyMembers members

def TidyItems : List Json → Prop
  | [] => True
  | j :: rest => Tidy j ∧ TidyItems rest

def TidyMembers : List (Text × Json) → Prop
  | [] => True
  | (_, j) :: rest => Tidy j ∧ TidyMembers rest

end

theorem tidyItems_iff {items : List Json} : TidyItems items ↔ ∀ j ∈ items, Tidy j := by
  induction items with
  | nil => simp [TidyItems]
  | cons j rest ih => rw [TidyItems, ih, List.forall_mem_cons]

theorem tidyMembers_iff {members : List (Text × Json)} :
    TidyMembers members ↔ ∀ m ∈ members, Tidy m.2 := by
  induction members with
  | nil => simp [TidyMembers]
  | cons m rest ih => rw [TidyMembers, ih, List.forall_mem_cons]

theorem tidy_entriesOfPairs {pairs : List (Text × Json)} (h : ∀ m ∈ pairs, Tidy m.2) :
    Tidy (.object (entriesOfPairs pairs)) :=
  ⟨nodup_keys_entriesOfPairs pairs,
    tidyMembers_iff.mpr fun m hm => h m (mem_of_mem_entriesOfPairs hm)⟩

/-! ## Numbers and words -/

theorem isDigits_of_wholePart? {t whole after : Text}
    (h : wholePart? t = some (whole, after)) : IsDigits whole := by
  cases t with
  | nil => cases h
  | cons c rest =>
      rw [wholePart?] at h
      split at h
      · next hc =>
          cases h
          exact ⟨List.cons_ne_nil c [], by rw [hc]; decide⟩
      · split at h
        · next hdigit =>
            cases h
            refine ⟨?_, List.all_eq_true.mp List.all_takeWhile⟩
            rw [List.takeWhile_cons_of_pos hdigit]
            exact List.cons_ne_nil _ _
        · cases h

theorem tidy_readNumber {t rest : Text} {j : Json} (h : readNumber t = .ok (j, rest)) : Tidy j := by
  unfold readNumber at h
  dsimp only at h
  split at h
  · cases h
  · next whole afterWhole hwhole =>
      obtain ⟨hne, hdigits⟩ := isDigits_of_wholePart? hwhole
      split at h
      · split at h
        · cases h
        · next hlength =>
            have hshort : (Text.ofNat (Text.digitsValue whole)).length ≤ maxDigits :=
              Nat.le_trans (Text.length_ofNat_digitsValue_le hne hdigits) (Nat.not_lt.mp hlength)
            have hsigned : ∀ unsigned : Bool, Tidy (.int (if unsigned then
                (Text.digitsValue whole : Int) else -(Text.digitsValue whole : Int))) := by
              intro unsigned
              cases unsigned with
              | false => rwa [if_neg (by decide), Tidy, Int.natAbs_neg]
              | true => exact hshort
            cases h
            exact hsigned _
      · cases h
        trivial

theorem tidy_readWord? {t : Text} {read : Json × Text} (h : readWord? t = some read) :
    Tidy read.1 := by
  obtain ⟨⟨word, j⟩, hmem, hread⟩ := List.exists_of_findSome?_eq_some h
  obtain ⟨after, -, rfl⟩ := Option.map_eq_some_iff.mp hread
  have htidy : ∀ w ∈ words, Tidy w.2 := by
    simp only [words, List.forall_mem_cons]
    exact ⟨trivial, trivial, trivial, trivial, trivial, trivial,
      fun w hw => absurd hw List.not_mem_nil⟩
  exact htidy _ hmem

/-! ## Values -/

/-- With some fuel, everything that is read is tidy if what was read before it is. -/
structure YieldsTidy (fuel : Nat) : Prop where
  value : ∀ {t rest : Text} {j : Json}, readValue fuel t = .ok (j, rest) → Tidy j
  items : ∀ {done : List Json} {t rest : Text} {j : Json}, (∀ k ∈ done, Tidy k) →
    readItems fuel done t = .ok (j, rest) → Tidy j
  members : ∀ {done : List (Text × Json)} {t rest : Text} {j : Json}, (∀ m ∈ done, Tidy m.2) →
    readMembers fuel done t = .ok (j, rest) → Tidy j

variable {fuel : Nat}

theorem tidy_readValue (hfuel : YieldsTidy fuel) {t rest : Text} {j : Json}
    (h : readValue (fuel + 1) t = .ok (j, rest)) : Tidy j := by
  cases t with
  | nil => cases h
  | cons c t =>
      rw [readValue] at h
      split at h
      · obtain ⟨_, -, heq⟩ := map_eq_ok.mp h
        cases heq
        trivial
      split at h
      · split at h
        · split at h
          · cases h
            trivial
          · exact hfuel.items (fun k hk => absurd hk List.not_mem_nil) h
        · cases h
      split at h
      · split at h
        · split at h
          · cases h
            exact ⟨List.nodup_nil, trivial⟩
          · exact hfuel.members (fun m hm => absurd hm List.not_mem_nil) h
        · cases h
      split at h
      · next hword =>
          cases h
          exact tidy_readWord? hword
      · exact tidy_readNumber h

theorem tidy_readItems (hfuel : YieldsTidy fuel) {done : List Json} {t rest : Text} {j : Json}
    (hdone : ∀ k ∈ done, Tidy k) (h : readItems (fuel + 1) done t = .ok (j, rest)) : Tidy j := by
  rw [readItems] at h
  obtain ⟨⟨k, after⟩, hk, h⟩ := bind_eq_ok.mp h
  have hdone : ∀ x ∈ k :: done, Tidy x := List.forall_mem_cons.mpr ⟨hfuel.value hk, hdone⟩
  dsimp only at h
  split at h
  · cases h
  · split at h
    · cases h
      exact tidyItems_iff.mpr fun x hx => hdone x (List.mem_reverse.mp hx)
    · split at h
      · exact hfuel.items hdone h
      · cases h

theorem tidy_readMembers (hfuel : YieldsTidy fuel) {done : List (Text × Json)} {t rest : Text}
    {j : Json} (hdone : ∀ m ∈ done, Tidy m.2) (h : readMembers (fuel + 1) done t = .ok (j, rest)) :
    Tidy j := by
  cases t with
  | nil => cases h
  | cons q inside =>
      rw [readMembers] at h
      split at h
      · obtain ⟨⟨key, afterKey⟩, -, h⟩ := bind_eq_ok.mp h
        dsimp only at h
        split at h
        · cases h
        split at h
        · obtain ⟨⟨k, after⟩, hk, h⟩ := bind_eq_ok.mp h
          have hdone : ∀ m ∈ (key, k) :: done, Tidy m.2 :=
            List.forall_mem_cons.mpr ⟨hfuel.value hk, hdone⟩
          dsimp only at h
          split at h
          · cases h
          split at h
          · cases h
            exact tidy_entriesOfPairs fun m hm => hdone m (List.mem_reverse.mp hm)
          · split at h
            · exact hfuel.members hdone h
            · cases h
        · cases h
      · cases h

theorem yieldsTidy_zero : YieldsTidy 0 where
  value h := by
    rw [readValue] at h
    cases h
  items _ h := by
    rw [readItems] at h
    cases h
  members _ h := by
    rw [readMembers] at h
    cases h

theorem yieldsTidy (fuel : Nat) : YieldsTidy fuel := by
  induction fuel with
  | zero => exact yieldsTidy_zero
  | succ fuel ih => exact ⟨tidy_readValue ih, tidy_readItems ih, tidy_readMembers ih⟩

theorem tidy_readToEnd {fuel : Nat} {t : Text} {j : Json}
    (h : (readValue fuel t >>= fun (k, after) =>
      match skipSpace after with
      | [] => .ok k
      | rest => .error (.malformed .extraData rest.length)) = .ok j) : Tidy j := by
  obtain ⟨⟨k, after⟩, hread, hend⟩ := bind_eq_ok.mp h
  dsimp only at hend
  split at hend
  · cases hend
    exact (yieldsTidy _).value hread
  · cases hend

theorem tidy_readWhole {t : Text} {j : Json} (h : readWhole t = .ok j) : Tidy j := by
  unfold readWhole at h
  dsimp only at h
  split at h
  · split at h
    · cases h
    · exact tidy_readToEnd h
  · exact tidy_readToEnd h

theorem tidy_of_read {t : Text} {j : Json} (h : read t = .ok j) : Tidy j := by
  unfold read at h
  split at h
  · next hok =>
      cases h
      exact tidy_readWhole hok
  · cases h
  · cases h

end SchemaDocs.Json
