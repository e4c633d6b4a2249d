import Mathlib.Data.List.Chain
import SchemaDocs.Json.Reader
/-!
# Surrogates in text

A text that does not hold a high surrogate directly before a low one can be spelled with escapes and
read back: two surrogates in that order would be read as one code point.
-/

namespace SchemaDocs.Text

/-- No high surrogate stands directly before a low one. -/
def PairFree (t : Text) : Prop :=
  t.IsChain fun c d => ¬(Json.isHigh c.value = true ∧ Json.isLow d.value = true)

instance (t : Text) : Decidable (PairFree t) :=
  inferInstanceAs (Decidable (List.IsChain _ t))

def SurrogateFree (t : Text) : Prop :=
  ∀ c ∈ t, c.isSurrogate = false

instance (t : Text) : Decidable (SurrogateFree t) :=
  inferInstanceAs (Decidable (∀ c ∈ t, _))

theorem isSurrogate_of_isHigh {c : CodePoint} (hc : Json.isHigh c.value = true) :
    c.isSurrogate = true := by
  simp only [Json.isHigh, CodePoint.isSurrogate, Bool.and_eq_true, decide_eq_true_eq] at hc ⊢
  omega

theorem isSurrogate_of_isLow {c : CodePoint} (hc : Json.isLow c.value = true) :
    c.isSurrogate = true := by
  simp only [Json.isLow, CodePoint.isSurrogate, Bool.and_eq_true, decide_eq_true_eq] at hc ⊢
  omega

/-! ## Texts without surrogates -/

theorem isSurrogate_ofChar (c : Char) : (CodePoint.ofChar c).isSurrogate = false := by
  have hvalid := c.valid
  simp only [UInt32.isValidChar, Nat.isValidChar] at hvalid
  rw [CodePoint.isSurrogate, Bool.and_eq_false_iff, decide_eq_false_iff_not,
    decide_eq_false_iff_not]
  simp only [CodePoint.ofChar, Char.toNat]
  omega

theorem surrogateFree_ofString (s : String) : SurrogateFree (ofString s) := by
  intro c hc
  obtain ⟨d, -, rfl⟩ := List.mem_map.mp hc
  exact isSurrogate_ofChar d

theorem surrogateFree_ofNat (n : Nat) : SurrogateFree (ofNat n) := by
  intro c hc
  obtain ⟨d, -, rfl⟩ := List.mem_map.mp hc
  exact isSurrogate_ofChar d

theorem surrogateFree_ofInt (n : Int) : SurrogateFree (ofInt n) := by
  cases n with
  | ofNat n => exact surrogateFree_ofNat n
  | negSucc n => exact List.forall_mem_cons.mpr ⟨isSurrogate_ofChar '-', surrogateFree_ofNat _⟩

theorem SurrogateFree.append {s t : Text} (hs : SurrogateFree s) (ht : SurrogateFree t) :
    SurrogateFree (s ++ t) := List.forall_mem_append.mpr ⟨hs, ht⟩

/-! ## Texts without pairs -/

theorem pairFree_nil : PairFree [] := List.isChain_nil

theorem PairFree.append_surrogateFree {s t : Text} (hs : PairFree s) (ht : SurrogateFree t) :
    PairFree (s ++ t) := by
  induction t generalizing s with
  | nil => rwa [List.append_nil]
  | cons c rest ih =>
      obtain ⟨hc, hrest⟩ := List.forall_mem_cons.mp ht
      rw [← List.singleton_append, ← List.append_assoc]
      refine ih (hs.append (List.isChain_singleton c) ?_) hrest
      intro d _ e he hpair
      cases he
      have hsurrogate := isSurrogate_of_isLow hpair.2
      rw [hc] at hsurrogate
      cases hsurrogate

theorem SurrogateFree.append_pairFree {s t : Text} (hs : SurrogateFree s) (ht : PairFree t) :
    PairFree (s ++ t) := by
  induction s with
  | nil => exact ht
  | cons c rest ih =>
      obtain ⟨hc, hrest⟩ := List.forall_mem_cons.mp hs
      refine List.isChain_cons.mpr ⟨fun d _ hpair => ?_, ih hrest⟩
      have hsurrogate := isSurrogate_of_isHigh hpair.1
      rw [hc] at hsurrogate
      cases hsurrogate

theorem SurrogateFree.pairFree {t : Text} (ht : SurrogateFree t) : PairFree t :=
  pairFree_nil.append_surrogateFree ht

theorem PairFree.append_between {s t u : Text} (hs : PairFree s) (ht : SurrogateFree t)
    (hne : t ≠ []) (hu : PairFree u) : PairFree (s ++ (t ++ u)) := by
  refine hs.append (ht.append_pairFree hu) ?_
  intro d _ e he hpair
  obtain ⟨c, rest, rfl⟩ := List.exists_cons_of_ne_nil hne
  cases he
  have hsurrogate := isSurrogate_of_isLow hpair.2
  rw [ht _ List.mem_cons_self] at hsurrogate
  cases hsurrogate

theorem pairFree_join {separator : Text} {parts : List Text} (hseparator : SurrogateFree separator)
    (hne : separator ≠ []) (hparts : ∀ t ∈ parts, PairFree t) :
    PairFree (join separator parts) := by
  induction parts with
  | nil => exact pairFree_nil
  | cons t rest ih =>
      obtain ⟨ht, hrest⟩ := List.forall_mem_cons.mp hparts
      cases rest with
      | nil => exact ht
      | cons u rest =>
          rw [join, List.append_assoc]
          exact ht.append_between hseparator hne (ih hrest)

end SchemaDocs.Text
