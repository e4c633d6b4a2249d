import Mathlib.Data.List.Induction
import Mathlib.Tactic.IntervalCases
import SchemaDocs.Text.Numeral
import SchemaDocs.Proofs.Text.Literal
/-!
# Numerals

The decimal digits of a number spell it and have no leading zero, and digits spell a number that
has no more digits than they are.  Four hexadecimal digits spell every 16-bit unit.
-/

namespace SchemaDocs.Text

/-! ## Decimal digits -/

theorem isDigit_ofChar {c : Char} (hc : c.isDigit = true) :
    (CodePoint.ofChar c).isDigit = true := by
  have hbounds := Char.isDigit_iff_toNat.mp hc
  rw [CodePoint.isDigit, Bool.and_eq_true, decide_eq_true_eq, decide_eq_true_eq]
  exact hbounds

theorem digitsValue_map_ofChar (cs : List Char) :
    digitsValue (cs.map CodePoint.ofChar) = Nat.ofDigitChars 10 cs 0 := by
  rw [digitsValue, List.foldl_map, Nat.ofDigitChars_eq_foldl]
  rfl

@[simp] theorem digitsValue_ofNat (n : Nat) : digitsValue (ofNat n) = n := by
  rw [ofNat, digitsValue_map_ofChar, Nat.ofDigitChars_ten_toDigits]

theorem isDigit_of_mem_ofNat {n : Nat} {c : CodePoint} (hc : c ∈ ofNat n) : c.isDigit = true := by
  obtain ⟨d, hd, rfl⟩ := List.mem_map.mp hc
  exact isDigit_ofChar (Nat.isDigit_of_mem_toDigits (by decide) (by decide) hd)

theorem ofNat_ne_nil (n : Nat) : ofNat n ≠ [] := by
  simp [ofNat]

theorem ofNat_zero : ofNat 0 = [CodePoint.ofChar '0'] := by
  simp [ofNat]

theorem digitChar_ne_zero {n : Nat} (hpos : 0 < n) (hlt : n < 10) : n.digitChar ≠ '0' := by
  interval_cases n <;> decide

theorem head?_toDigits_ne_zero {n : Nat} (hpos : 0 < n) : (Nat.toDigits 10 n).head? ≠ some '0' := by
  induction n using Nat.strongRecOn with
  | ind n ih =>
      by_cases hlt : n < 10
      · rw [Nat.toDigits_of_lt_base hlt]
        simpa using digitChar_ne_zero hpos hlt
      · have hfirst := ih (n / 10) (by omega) (by omega)
        obtain ⟨c, cs, hcs⟩ :=
          List.exists_cons_of_ne_nil (Nat.toDigits_ne_nil (n := n / 10) (b := 10))
        rw [Nat.toDigits_of_base_le (by decide) (by omega), hcs]
        rw [hcs] at hfirst
        exact hfirst

theorem exists_ofNat_eq_cons {n : Nat} (hpos : 0 < n) :
    ∃ d ds, ofNat n = d :: ds ∧ d ≠ CodePoint.ofChar '0' := by
  obtain ⟨c, cs, hcs⟩ := List.exists_cons_of_ne_nil (Nat.toDigits_ne_nil (n := n) (b := 10))
  refine ⟨CodePoint.ofChar c, cs.map CodePoint.ofChar, by rw [ofNat, hcs, List.map_cons], ?_⟩
  intro h
  have hhead := head?_toDigits_ne_zero hpos
  rw [hcs, CodePoint.ofChar_injective h] at hhead
  exact hhead rfl

theorem digitsValue_append_singleton (t : Text) (c : CodePoint) :
    digitsValue (t ++ [c]) = 10 * digitsValue t + (c.value - 0x30) := by
  simp [digitsValue, List.foldl_append]

theorem digitsValue_lt {t : Text} (ht : ∀ c ∈ t, c.isDigit = true) :
    digitsValue t < 10 ^ t.length := by
  induction t using List.reverseRecOn with
  | nil => decide
  | append_singleton t c ih =>
      have hc := ht c (by simp)
      simp only [CodePoint.isDigit, Bool.and_eq_true, decide_eq_true_eq] at hc
      have hrest := ih fun d hd => ht d (by simp [hd])
      rw [digitsValue_append_singleton, List.length_append, List.length_singleton, Nat.pow_succ]
      omega

theorem length_ofNat_digitsValue_le {t : Text} (hne : t ≠ []) (ht : ∀ c ∈ t, c.isDigit = true) :
    (ofNat (digitsValue t)).length ≤ t.length := by
  rw [ofNat, List.length_map]
  exact (Nat.length_toDigits_le_iff (by decide) (List.length_pos_iff.mpr hne)).mpr
    (digitsValue_lt ht)

/-! ## Hexadecimal digits -/

theorem hexDigitValue?_hexDigit (n : Nat) : hexDigitValue? (hexDigit n) = some (n % 16) := by
  have hdigits : ∀ d < 16, hexDigitValue? (Nat.digitChar d) = some d := by decide
  exact hdigits (n % 16) (Nat.mod_lt n (by decide))

theorem hex_four (n : Nat) :
    hex 4 n = [hexDigit (n / 16 / 16 / 16), hexDigit (n / 16 / 16), hexDigit (n / 16),
      hexDigit n] := rfl

theorem hexValue?_hex_four {n : Nat} (hn : n < 0x10000) : hexValue? (hex 4 n) = some n := by
  simp only [hex_four, hexValue?, List.foldlM_cons, List.foldlM_nil, hexDigitValue?_hexDigit,
    Option.map_some, Option.bind_eq_bind, Option.bind_some, Option.pure_def, Option.some.injEq]
  omega

end SchemaDocs.Text
