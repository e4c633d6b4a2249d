import Mathlib.Data.List.DropRight
import SchemaDocs.Proofs.Json.Number
/-!
# The literals of floating-point numbers

The shortest decimal of a number other than zero is positive, so its digits begin with no zero, and
what is written with them is the literal of a number that is no integer.

* `isReal_text`: what JSON writes for a binary64 number is read as it stands.
-/

namespace SchemaDocs

open Json (IsDigits IsWhole IsFraction IsExponent IsReal)

/-! ## The shortest decimal -/

namespace RoundingSpan

theorem lower_le_of_contains {s : RoundingSpan} {x : Nat} (h : s.contains x = true) :
    s.lower ≤ x := by
  unfold contains at h
  split at h
  · rw [Bool.and_eq_true, decide_eq_true_eq] at h
    exact h.1
  · rw [Bool.and_eq_true, decide_eq_true_eq] at h
    exact Nat.le_of_lt h.1

theorem nearestMultiple?_pos {s : RoundingSpan} {unit factor : Nat} (hlower : 0 < s.lower)
    (h : s.nearestMultiple? unit = some factor) : 0 < factor := by
  have hpos : ∀ k, s.contains (k * unit) = true → 0 < k := by
    intro k hk
    have hle := lower_le_of_contains hk
    refine Nat.pos_of_ne_zero ?_
    rintro rfl
    omega
  unfold nearestMultiple? at h
  dsimp only at h
  split at h
  · cases h
  · next hbelow _ =>
      cases h
      exact hpos _ hbelow
  · next _ habove =>
      cases h
      exact hpos _ habove
  · next hbelow habove =>
      have hbelow := hpos _ hbelow
      have habove := hpos _ habove
      split at h
      · cases h
        exact hbelow
      · split at h
        · cases h
          exact habove
        · cases h
          omega

theorem shortestWithin_pos {s : RoundingSpan} (hlower : 0 < s.lower) (hvalue : 0 < s.value)
    (places : Nat) : 0 < (s.shortestWithin places).digits := by
  induction places with
  | zero => exact hvalue
  | succ places ih =>
      rw [shortestWithin]
      split
      · next factor h => exact nearestMultiple?_pos hlower h
      · exact ih

end RoundingSpan

theorem shortestDecimal_pos {significand : Nat} (hpos : 0 < significand) (exponent : Int) :
    0 < (shortestDecimal significand exponent).digits := by
  have hunit : 0 < Nat.pow 2 (exponent - 2).toNat * Nat.pow 5 (-(exponent - 2)).toNat :=
    Nat.mul_pos (Nat.pow_pos (by decide)) (Nat.pow_pos (by decide))
  refine RoundingSpan.shortestWithin_pos ?_ ?_ _
  · refine Nat.mul_pos ?_ hunit
    split <;> omega
  · exact Nat.mul_pos (by omega) hunit

/-! ## Digits -/

namespace Binary64

open Text (ofNat)

def BeginsDigits (t : Text) : Prop :=
  ∃ d ds, t = d :: ds ∧ d.isDigit = true ∧ d ≠ CodePoint.ofChar '0' ∧ ∀ c ∈ ds, c.isDigit = true

theorem BeginsDigits.isDigits {t : Text} (h : BeginsDigits t) : IsDigits t := by
  obtain ⟨d, ds, rfl, hd, -, hds⟩ := h
  exact ⟨List.cons_ne_nil d ds, List.forall_mem_cons.mpr ⟨hd, hds⟩⟩

theorem BeginsDigits.isWhole {t : Text} (h : BeginsDigits t) : IsWhole t := by
  have hdigits := h.isDigits
  obtain ⟨d, ds, rfl, -, hd, -⟩ := h
  exact .inr ⟨hdigits, fun heq => hd (Option.some.inj heq)⟩

theorem beginsDigits_significantDigits {d : Decimal} (hd : 0 < d.digits) :
    BeginsDigits (significantDigits d).1 := by
  obtain ⟨c, cs, hcs, hc⟩ := Text.exists_ofNat_eq_cons hd
  have hdigit : ∀ x ∈ c :: cs, x.isDigit = true := by
    rw [← hcs]
    exact fun x hx => Text.isDigit_of_mem_ofNat hx
  have hstripped : (significantDigits d).1 =
      (c :: cs).rdropWhile fun x => x == CodePoint.ofChar '0' := by
    rw [← hcs]
    rfl
  have hne : (c :: cs).rdropWhile (fun x => x == CodePoint.ofChar '0') ≠ [] := by
    rw [Ne, List.rdropWhile_eq_nil_iff]
    exact fun h => hc (beq_iff_eq.mp (h c List.mem_cons_self))
  obtain ⟨x, xs, hxs⟩ := List.exists_cons_of_ne_nil hne
  have hfront := List.rdropWhile_prefix (fun x => x == CodePoint.ofChar '0') (l := c :: cs)
  rw [hxs] at hstripped hfront
  obtain ⟨rfl, hsub⟩ := List.cons_prefix_cons.mp hfront
  rw [hstripped]
  obtain ⟨hx, hrest⟩ := List.forall_mem_cons.mp hdigit
  exact ⟨x, xs, rfl, hx, hc, fun y hy => hrest y (hsub.subset hy)⟩

theorem isDigit_of_mem_fill {n : Nat} {c : CodePoint}
    (hc : c ∈ Text.fill n (CodePoint.ofChar '0')) : c.isDigit = true := by
  rw [List.eq_of_mem_replicate hc]
  rfl

theorem isExponent_exponentText (e : Int) :
    IsExponent (CodePoint.ofChar 'e' :: exponentText e) := by
  have hdigits : ∀ c ∈ ofNat e.natAbs, c.isDigit = true := fun c hc =>
    Text.isDigit_of_mem_ofNat hc
  have hpadded : IsDigits (if (ofNat e.natAbs).length < 2 then "0" ++ ofNat e.natAbs
      else ofNat e.natAbs) := by
    split
    · exact ⟨by simp [Text.ofString], List.forall_mem_append.mpr ⟨by decide, hdigits⟩⟩
    · exact ⟨Text.ofNat_ne_nil _, hdigits⟩
  have hsign : ∃ sign, (if e < 0 then "-" else "+" : Text) = [sign] ∧
      (sign = CodePoint.ofChar '+' ∨ sign = CodePoint.ofChar '-') := by
    split
    · exact ⟨_, rfl, .inr rfl⟩
    · exact ⟨_, rfl, .inl rfl⟩
  obtain ⟨sign, heq, hsign⟩ := hsign
  refine .inr ⟨sign, _, ?_, hsign, hpadded⟩
  rw [exponentText, heq]
  rfl

/-! ## Magnitudes -/

/-- A text that is written with a whole part and a fraction, an exponent, or both. -/
def IsMagnitude (t : Text) : Prop :=
  ∃ whole fraction exponent, t = whole ++ (fraction ++ exponent) ∧ IsWhole whole ∧
    IsFraction fraction ∧ IsExponent exponent ∧ (fraction ≠ [] ∨ exponent ≠ [])

theorem isMagnitude_point {whole ds : Text} (hwhole : IsWhole whole) (hds : IsDigits ds) :
    IsMagnitude (whole ++ CodePoint.ofChar '.' :: ds) :=
  ⟨whole, CodePoint.ofChar '.' :: ds, [], by rw [List.append_nil], hwhole,
    .inr ⟨ds, rfl, hds⟩, .inl rfl, .inl (List.cons_ne_nil _ _)⟩

theorem isMagnitude_positionalText {digits : Text} (hdigits : BeginsDigits digits) (place : Int) :
    IsMagnitude (positionalText digits place) := by
  unfold positionalText
  split
  · have hfraction : IsDigits (Text.fill (-place - 1).toNat (CodePoint.ofChar '0') ++ digits) := by
      refine ⟨?_, List.forall_mem_append.mpr ⟨fun c hc => isDigit_of_mem_fill hc,
        hdigits.isDigits.2⟩⟩
      exact List.append_ne_nil_of_right_ne_nil _ hdigits.isDigits.1
    have hwhole : IsWhole [CodePoint.ofChar '0'] := .inl rfl
    have hpoint := isMagnitude_point hwhole hfraction
    rw [List.append_assoc]
    exact hpoint
  · have hwhole : IsWhole ((digits ++ Text.fill (place.toNat + 1 - digits.length)
        (CodePoint.ofChar '0')).take (place.toNat + 1)) := by
      apply BeginsDigits.isWhole
      obtain ⟨d, ds, rfl, hd, hne, hds⟩ := hdigits
      refine ⟨d, _, rfl, hd, hne, fun c hc => ?_⟩
      rcases List.mem_append.mp (List.mem_of_mem_take hc) with hmem | hmem
      · exact hds c hmem
      · exact isDigit_of_mem_fill hmem
    have hfraction : IsDigits (if (digits.drop (place.toNat + 1)).isEmpty then "0"
        else digits.drop (place.toNat + 1) : Text) := by
      split
      · exact ⟨by simp [Text.ofString], by decide⟩
      · next hne =>
          exact ⟨fun h => hne (by rw [h]; rfl), fun c hc =>
            hdigits.isDigits.2 c (List.mem_of_mem_drop hc)⟩
    have hpoint := isMagnitude_point hwhole hfraction
    rw [List.append_assoc]
    exact hpoint

theorem isMagnitude_scientific {digits : Text} (hdigits : BeginsDigits digits) (place : Int) :
    IsMagnitude (scientificDigits digits ++ "e" ++ exponentText place) := by
  obtain ⟨d, ds, rfl, hd, hne, hds⟩ := hdigits
  have hwhole : IsWhole [d] :=
    BeginsDigits.isWhole ⟨d, [], rfl, hd, hne, fun c hc => absurd hc List.not_mem_nil⟩
  have hexponent := isExponent_exponentText place
  rw [List.append_assoc]
  cases ds with
  | nil => exact ⟨[d], [], _, rfl, hwhole, .inl rfl, hexponent, .inr (List.cons_ne_nil _ _)⟩
  | cons c cs =>
      exact ⟨[d], _, _, rfl, hwhole, .inr ⟨c :: cs, rfl, List.cons_ne_nil c cs, hds⟩, hexponent,
        .inl (List.cons_ne_nil _ _)⟩

theorem isMagnitude_magnitudeText (significand : Nat) (exponent : Int) :
    IsMagnitude (magnitudeText significand exponent) := by
  unfold magnitudeText
  split
  · have hzero : IsDigits [CodePoint.ofChar '0'] := ⟨by simp, by decide⟩
    exact isMagnitude_point (.inl rfl) hzero
  · next hzero =>
      have hdigits := beginsDigits_significantDigits
        (shortestDecimal_pos (Nat.pos_of_ne_zero hzero) exponent)
      dsimp only
      split
      · exact isMagnitude_positionalText hdigits _
      · exact isMagnitude_scientific hdigits _

theorem isReal_text (x : Binary64) : IsReal (x.text jsonSpelling) := by
  cases x with
  | nan => exact .nan
  | infinite negative =>
      cases negative with
      | false => exact .infinity
      | true => exact .negInfinity
  | finite negative significand exponent =>
      obtain ⟨whole, fraction, power, htext, hwhole, hfraction, hpower, hreal⟩ :=
        isMagnitude_magnitudeText significand exponent
      have hsign : (if negative then "-" else "" : Text) = [] ∨
          (if negative then "-" else "" : Text) = [CodePoint.ofChar '-'] := by
        cases negative with
        | false => exact .inl rfl
        | true => exact .inr rfl
      rw [text, htext]
      exact .number hsign hwhole hfraction hpower hreal

end Binary64

end SchemaDocs
