import SchemaDocs.Json.Printer
import SchemaDocs.Proofs.Text.Numeral
import SchemaDocs.Proofs.Text.Surrogate
/-!
# String literals

A code point can be spelled in a string by itself, by an escape of one letter, by the escape of its
number, or by the escapes of two surrogates.  A text is read back from any spellings of its code
points, unless two of its code points would be joined.

* `readString_spelled`: spellings of the code points of a text, up to a quote, are read as the text;
* `spells_escaped`: what the printer writes for a code point spells it.
-/

namespace SchemaDocs.Json

open Text (PairFree hex hex_four hexValue?_hex_four)

inductive Spells : CodePoint → Text → Prop where
  | itself {c : CodePoint} (hquote : c ≠ CodePoint.ofChar '"') (hslash : c ≠ CodePoint.ofChar '\\')
      (hcontrol : 0x20 ≤ c.value) : Spells c [c]
  | letter {c l : CodePoint} (hl : letterEscape? l = some c) : Spells c [CodePoint.ofChar '\\', l]
  | unit {c : CodePoint} (hc : c.value < 0x10000) : Spells c (unicodeEscape c.value)
  | pair {c : CodePoint} (hc : 0x10000 ≤ c.value) :
      Spells c (unicodeEscape (0xD800 + (c.value - 0x10000) / 0x400) ++
        unicodeEscape (0xDC00 + (c.value - 0x10000) % 0x400))

/-- What may follow the escape of a high surrogate for it to be read alone: an item of a string that
is no escape of a low surrogate, or the end of the string. -/
inductive LeavesAlone : Text → Prop where
  | plain {c : CodePoint} (hc : c ≠ CodePoint.ofChar '\\') (rest : Text) : LeavesAlone (c :: rest)
  | letter {l : CodePoint} (hl : l ≠ CodePoint.ofChar 'u') (rest : Text) :
      LeavesAlone (CodePoint.ofChar '\\' :: l :: rest)
  | unit {n : Nat} (hn : n < 0x10000) (hlow : isLow n = false) {rest : Text} (hrest : rest ≠ []) :
      LeavesAlone (unicodeEscape n ++ rest)

/-! ## Escapes of numbers -/

theorem unicodeEscape_eq (n : Nat) :
    unicodeEscape n = CodePoint.ofChar '\\' :: CodePoint.ofChar 'u' :: hex 4 n := rfl

theorem fourDigits?_hex {n : Nat} (hn : n < 0x10000) {rest : Text} (hrest : rest ≠ []) :
    fourDigits? (hex 4 n ++ rest) = some n := by
  obtain ⟨c, rest, rfl⟩ := List.exists_cons_of_ne_nil hrest
  exact hexValue?_hex_four hn

theorem drop_four_hex (n : Nat) (rest : Text) : (hex 4 n ++ rest).drop 4 = rest := rfl

theorem readUnicodeEscape_alone {n : Nat} (hn : n < 0x10000) {rest : Text} (hrest : rest ≠ [])
    (hhigh : isHigh n = true → LeavesAlone rest) :
    readUnicodeEscape (hex 4 n ++ rest) = .ok (.ofNatD n, 4) := by
  rw [readUnicodeEscape, fourDigits?_hex hn hrest]
  cases hcase : isHigh n with
  | false => simp only [hcase, Bool.not_false, if_true]
  | true =>
      simp only [hcase, Bool.not_true, Bool.false_eq_true, if_false, drop_four_hex]
      cases hhigh hcase with
      | plain hc rest => cases rest <;> simp [hc]
      | letter hl rest => simp [hl]
      | @unit m hm hlow after hafter =>
          simp only [unicodeEscape_eq, List.cons_append, fourDigits?_hex hm hafter, hlow,
            Bool.false_eq_true, if_false, ite_self]

theorem readUnicodeEscape_pair {n m : Nat} (hn : isHigh n = true) (hm : isLow m = true)
    {rest : Text} (hrest : rest ≠ []) :
    readUnicodeEscape (hex 4 n ++ (unicodeEscape m ++ rest)) = .ok (joinSurrogates n m, 10) := by
  have hnlt : n < 0x10000 := by
    simp only [isHigh, Bool.and_eq_true, decide_eq_true_eq] at hn
    omega
  have hmlt : m < 0x10000 := by
    simp only [isLow, Bool.and_eq_true, decide_eq_true_eq] at hm
    omega
  have hlength : 5 ≤ ((hex 4 m ++ rest).take 5).length := by
    have hpos := List.length_pos_iff.mpr hrest
    rw [List.length_take, List.length_append, hex_four]
    simp only [List.length_cons, List.length_nil]
    omega
  rw [readUnicodeEscape, fourDigits?_hex hnlt (by simp [unicodeEscape_eq])]
  simp only [hn, Bool.not_true, Bool.false_eq_true, if_false, drop_four_hex, unicodeEscape_eq,
    List.cons_append, fourDigits?_hex hmlt hrest, hm, if_true, hlength, decide_true, Bool.and_self]

theorem joinSurrogates_halves {c : CodePoint} (hc : 0x10000 ≤ c.value) :
    joinSurrogates (0xD800 + (c.value - 0x10000) / 0x400) (0xDC00 + (c.value - 0x10000) % 0x400) =
      c := by
  have hlt := c.isLt
  have hsum : 0x10000 + (0xD800 + (c.value - 0x10000) / 0x400 - 0xD800) * 0x400 +
      (0xDC00 + (c.value - 0x10000) % 0x400 - 0xDC00) = c.value := by omega
  rw [joinSurrogates, hsum, CodePoint.ofNatD, dif_pos hlt]

theorem isHigh_half {c : CodePoint} (hc : 0x10000 ≤ c.value) :
    isHigh (0xD800 + (c.value - 0x10000) / 0x400) = true := by
  have hlt := c.isLt
  simp only [isHigh, Bool.and_eq_true, decide_eq_true_eq]
  omega

theorem isLow_half (c : CodePoint) : isLow (0xDC00 + (c.value - 0x10000) % 0x400) = true := by
  simp only [isLow, Bool.and_eq_true, decide_eq_true_eq]
  omega

/-! ## Reading one code point -/

theorem ne_u_of_letterEscape? {l c : CodePoint} (hl : letterEscape? l = some c) :
    l ≠ CodePoint.ofChar 'u' := by
  have hnone : letterEscape? (CodePoint.ofChar 'u') = none := by decide
  rintro rfl
  rw [hnone] at hl
  cases hl

theorem readString_skip (opening done s t : Text) :
    readString opening s.length done (s ++ t) = readString opening 0 done t := by
  induction s with
  | nil => rfl
  | cons c rest ih => rw [List.cons_append, List.length_cons, readString, ih]

theorem readString_escape {opening done escape rest : Text} {c : CodePoint}
    (h : readEscape opening (escape ++ rest) = .ok (c, escape.length)) :
    readString opening 0 done (CodePoint.ofChar '\\' :: (escape ++ rest)) =
      readString opening 0 (c :: done) rest := by
  rw [readString, if_neg (by decide), if_neg (by decide), if_pos rfl, h]
  exact readString_skip opening (c :: done) escape rest

theorem readString_spells {c : CodePoint} {part rest : Text} (hpart : Spells c part)
    (hrest : rest ≠ []) (hhigh : isHigh c.value = true → LeavesAlone rest)
    (opening done : Text) :
    readString opening 0 done (part ++ rest) = readString opening 0 (c :: done) rest := by
  cases hpart with
  | itself hquote hslash hcontrol =>
      rw [List.singleton_append, readString, if_neg hquote, if_neg (Nat.not_lt.mpr hcontrol),
        if_neg hslash]
  | @letter l hl =>
      have hescape : readEscape opening ([l] ++ rest) = .ok (c, 1) := by
        rw [List.singleton_append, readEscape, if_neg (ne_u_of_letterEscape? hl), hl]
      exact readString_escape hescape
  | unit hc =>
      have hvalue : CodePoint.ofNatD c.value = c := dif_pos c.isLt
      have hescape : readEscape opening ((CodePoint.ofChar 'u' :: hex 4 c.value) ++ rest) =
          .ok (c, 5) := by
        rw [List.cons_append, readEscape, if_pos rfl, readUnicodeEscape_alone hc hrest hhigh,
          hvalue]
        rfl
      exact readString_escape hescape
  | pair hc =>
      have hescape : readEscape opening
          ((CodePoint.ofChar 'u' :: hex 4 (0xD800 + (c.value - 0x10000) / 0x400) ++
            unicodeEscape (0xDC00 + (c.value - 0x10000) % 0x400)) ++ rest) = .ok (c, 11) := by
        rw [List.append_assoc, List.cons_append, readEscape, if_pos rfl,
          readUnicodeEscape_pair (isHigh_half hc) (isLow_half c) hrest, joinSurrogates_halves hc]
        rfl
      exact readString_escape hescape

/-! ## Reading a text -/

theorem leavesAlone_spells {c : CodePoint} {part rest : Text} (hpart : Spells c part)
    (hlow : isLow c.value = false) (hrest : rest ≠ []) : LeavesAlone (part ++ rest) := by
  cases hpart with
  | itself _ hslash _ => exact .plain hslash rest
  | letter hl => exact .letter (ne_u_of_letterEscape? hl) rest
  | unit hc => exact .unit hc hlow hrest
  | pair hc =>
      have hhigh := isHigh_half hc
      rw [List.append_assoc]
      refine .unit ?_ ?_ (by simp [unicodeEscape_eq])
      · have hlt := c.isLt
        omega
      · simp only [isHigh, isLow, Bool.and_eq_true, Bool.and_eq_false_iff, decide_eq_true_eq,
          decide_eq_false_iff_not] at hhigh ⊢
        omega

theorem readString_spelled {spell : CodePoint → Text} (hspell : ∀ c, Spells c (spell c)) {t : Text}
    (ht : PairFree t) (opening done rest : Text) :
    readString opening 0 done (t.flatMap spell ++ CodePoint.ofChar '"' :: rest) =
      .ok (done.reverse ++ t, rest) := by
  induction t generalizing done with
  | nil => rw [List.flatMap_nil, List.nil_append, readString, if_pos rfl, List.append_nil]
  | cons c t ih =>
      obtain ⟨hnext, htail⟩ := List.isChain_cons.mp ht
      -- Only a low surrogate would be joined with a high one before it, and none follows.
      have halone : isHigh c.value = true →
          LeavesAlone (t.flatMap spell ++ CodePoint.ofChar '"' :: rest) := by
        intro hhigh
        cases t with
        | nil => exact .plain (by decide) rest
        | cons d t =>
            have hlow : isLow d.value = false :=
              Bool.eq_false_iff.mpr fun hlow => hnext d rfl ⟨hhigh, hlow⟩
            rw [List.flatMap_cons, List.append_assoc]
            exact leavesAlone_spells (hspell d) hlow (by simp)
      rw [List.flatMap_cons, List.append_assoc,
        readString_spells (hspell c) (by simp) halone opening done, ih htail]
      simp

/-! ## The printer -/

/-- What the printer writes for a code point: the code point itself if it is printable and has no
meaning in strings, or an escape. -/
inductive Written (c : CodePoint) : Text → Prop where
  | itself (hquote : c ≠ CodePoint.ofChar '"') (hslash : c ≠ CodePoint.ofChar '\\')
      (hprintable : 0x20 ≤ c.value ∧ c.value ≤ 0x7E) : Written c [c]
  | letter {l : Char} (hl : letterEscape? (CodePoint.ofChar l) = some c)
      (hmem : l ∈ ['"', '\\', 'b', 't', 'n', 'f', 'r']) :
      Written c [CodePoint.ofChar '\\', CodePoint.ofChar l]
  | unit (hc : c.value < 0x10000) : Written c (unicodeEscape c.value)
  | pair (hc : 0x10000 ≤ c.value) :
      Written c (unicodeEscape (0xD800 + (c.value - 0x10000) / 0x400) ++
        unicodeEscape (0xDC00 + (c.value - 0x10000) % 0x400))

theorem written_escaped (c : CodePoint) : Written c (escaped c) := by
  have hletter : ∀ {l : Char} {n : Nat}, letterEscape? (CodePoint.ofChar l) = some (.ofNatD n) →
      l ∈ ['"', '\\', 'b', 't', 'n', 'f', 'r'] → c.value = n →
      Written c [CodePoint.ofChar '\\', CodePoint.ofChar l] := by
    intro l n hl hmem hc
    have hvalue : CodePoint.ofNatD n = c := by
      rw [← hc]
      exact dif_pos c.isLt
    exact .letter (by rw [hl, hvalue]) hmem
  unfold escaped
  split
  · next h => exact hletter (l := '"') (n := 0x22) rfl (by decide) (by rw [h]; rfl)
  split
  · next h => exact hletter (l := '\\') (n := 0x5C) rfl (by decide) (by rw [h]; rfl)
  split
  · next h => exact hletter (l := 'b') rfl (by decide) h
  split
  · next h => exact hletter (l := 't') rfl (by decide) h
  split
  · next h => exact hletter (l := 'n') rfl (by decide) h
  split
  · next h => exact hletter (l := 'f') rfl (by decide) h
  split
  · next h => exact hletter (l := 'r') rfl (by decide) h
  split
  · next hquote hslash _ _ _ _ _ hplain =>
      rw [Bool.and_eq_true, decide_eq_true_eq, decide_eq_true_eq] at hplain
      exact .itself hquote hslash hplain
  split
  · next h => exact .unit h
  · next h => exact .pair (Nat.not_lt.mp h)

theorem Written.spells {c : CodePoint} {t : Text} (h : Written c t) : Spells c t := by
  cases h with
  | itself hquote hslash hprintable => exact .itself hquote hslash hprintable.1
  | letter hl _ => exact .letter hl
  | unit hc => exact .unit hc
  | pair hc => exact .pair hc

theorem spells_escaped (c : CodePoint) : Spells c (escaped c) :=
  (written_escaped c).spells

end SchemaDocs.Json
