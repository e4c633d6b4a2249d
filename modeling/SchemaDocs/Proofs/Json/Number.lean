import SchemaDocs.Json.Reader
import SchemaDocs.Proofs.Text.Numeral
import SchemaDocs.Proofs.Text.Occurrence
/-!
# Numbers and words in JSON documents

A numeral that does not begin with a needless zero, and the literal of a number with a fraction or
an exponent, are read as they stand if what follows cannot belong to them.

* `readValue_int`: the digits of an integer are read as that integer;
* `readValue_real`: the literal of a real number is kept;
* `readValue_word`: the words stand for themselves.
-/

namespace SchemaDocs.Json

/-! ## Literals -/

def IsDigits (t : Text) : Prop :=
  t ≠ [] ∧ ∀ c ∈ t, c.isDigit = true

def IsWhole (t : Text) : Prop :=
  t = [CodePoint.ofChar '0'] ∨ IsDigits t ∧ t.head? ≠ some (CodePoint.ofChar '0')

def IsFraction (t : Text) : Prop :=
  t = [] ∨ ∃ ds, t = CodePoint.ofChar '.' :: ds ∧ IsDigits ds

def IsExponent (t : Text) : Prop :=
  t = [] ∨ ∃ sign ds, t = CodePoint.ofChar 'e' :: sign :: ds ∧
    (sign = CodePoint.ofChar '+' ∨ sign = CodePoint.ofChar '-') ∧ IsDigits ds

/-- The literal of a number that is no integer. -/
inductive IsReal : Text → Prop where
  | nan : IsReal "NaN"
  | infinity : IsReal "Infinity"
  | negInfinity : IsReal "-Infinity"
  | number {sign whole fraction exponent : Text}
      (hsign : sign = [] ∨ sign = [CodePoint.ofChar '-']) (hwhole : IsWhole whole)
      (hfraction : IsFraction fraction) (hexponent : IsExponent exponent)
      (hreal : fraction ≠ [] ∨ exponent ≠ []) :
      IsReal (sign ++ (whole ++ (fraction ++ exponent)))

/-- What may follow a number in a document: nothing, or what ends an item. -/
def EndsNumber (rest : Text) : Prop :=
  ∀ c ∈ rest.head?,
    c = CodePoint.ofChar ',' ∨ c = CodePoint.ofChar ']' ∨ c = CodePoint.ofChar '\x7d'

/-! ## The parts of a number -/

theorem spanDigits_append {ds rest : Text} (hds : ∀ c ∈ ds, c.isDigit = true)
    (hrest : ∀ c ∈ rest.head?, c.isDigit = false) : spanDigits (ds ++ rest) = (ds, rest) := by
  rw [spanDigits, List.takeWhile_append_of_pos hds, List.dropWhile_append_of_pos hds]
  cases rest with
  | nil => simp
  | cons c rest =>
      have hc := hrest c rfl
      rw [List.takeWhile_cons_of_neg (by simp [hc]), List.dropWhile_cons_of_neg (by simp [hc]),
        List.append_nil]

theorem wholePart?_append {whole rest : Text} (hwhole : IsWhole whole)
    (hrest : ∀ c ∈ rest.head?, c.isDigit = false) :
    wholePart? (whole ++ rest) = some (whole, rest) := by
  rcases hwhole with rfl | ⟨⟨hne, hdigits⟩, hfirst⟩
  · rfl
  · obtain ⟨d, ds, rfl⟩ := List.exists_cons_of_ne_nil hne
    have hd : d ≠ CodePoint.ofChar '0' := fun h => hfirst (by rw [h]; rfl)
    rw [List.cons_append, wholePart?, if_neg hd, if_pos (hdigits d List.mem_cons_self),
      ← List.cons_append, spanDigits_append hdigits hrest]

theorem fractionPart_append {fraction rest : Text} (hfraction : IsFraction fraction)
    (hrest : ∀ c ∈ rest.head?, c.isDigit = false ∧ c ≠ CodePoint.ofChar '.') :
    fractionPart (fraction ++ rest) = (fraction, rest) := by
  rcases hfraction with rfl | ⟨ds, rfl, hne, hdigits⟩
  · cases rest with
    | nil => rfl
    | cons c rest =>
        have hc := (hrest c rfl).2
        simp [fractionPart, hc]
  · have hspan := spanDigits_append hdigits fun c hc => (hrest c hc).1
    simp [fractionPart, hspan, hne]

theorem exponentPart_append {exponent rest : Text} (hexponent : IsExponent exponent)
    (hrest : EndsNumber rest) : exponentPart (exponent ++ rest) = (exponent, rest) := by
  rcases hexponent with rfl | ⟨sign, ds, rfl, hsign, hne, hdigits⟩
  · cases rest with
    | nil => rfl
    | cons c rest =>
        have hc : c ≠ CodePoint.ofChar 'e' ∧ c ≠ CodePoint.ofChar 'E' := by
          rcases hrest c rfl with rfl | rfl | rfl <;> decide
        simp [exponentPart, hc]
  · have hspan : spanDigits (ds ++ rest) = (ds, rest) := by
      apply spanDigits_append hdigits
      intro c hc
      rcases hrest c hc with rfl | rfl | rfl <;> rfl
    simp [exponentPart, hsign, hspan, hne]

theorem head?_append_or {s t : Text} {c : CodePoint} (hc : c ∈ (s ++ t).head?) :
    c ∈ s.head? ∨ s = [] ∧ c ∈ t.head? := by
  cases s with
  | nil => exact .inr ⟨rfl, hc⟩
  | cons d s => exact .inl hc

theorem noDigit_head?_afterWhole {fraction exponent rest : Text} (hfraction : IsFraction fraction)
    (hexponent : IsExponent exponent) (hrest : EndsNumber rest) :
    ∀ c ∈ (fraction ++ (exponent ++ rest)).head?, c.isDigit = false := by
  intro c hc
  rcases head?_append_or hc with hc | ⟨-, hc⟩
  · rcases hfraction with rfl | ⟨ds, rfl, -⟩
    · cases hc
    · cases hc
      rfl
  · rcases head?_append_or hc with hc | ⟨-, hc⟩
    · rcases hexponent with rfl | ⟨sign, ds, rfl, -⟩
      · cases hc
      · cases hc
        rfl
    · rcases hrest c hc with rfl | rfl | rfl <;> rfl

theorem noPoint_head?_afterFraction {exponent rest : Text} (hexponent : IsExponent exponent)
    (hrest : EndsNumber rest) :
    ∀ c ∈ (exponent ++ rest).head?, c.isDigit = false ∧ c ≠ CodePoint.ofChar '.' := by
  intro c hc
  rcases head?_append_or hc with hc | ⟨-, hc⟩
  · rcases hexponent with rfl | ⟨sign, ds, rfl, -⟩
    · cases hc
    · cases hc
      decide
  · rcases hrest c hc with rfl | rfl | rfl <;> decide

theorem readNumber_parts {sign whole fraction exponent rest : Text}
    (hsign : sign = [] ∨ sign = [CodePoint.ofChar '-']) (hwhole : IsWhole whole)
    (hfraction : IsFraction fraction) (hexponent : IsExponent exponent)
    (hrest : EndsNumber rest) :
    readNumber (sign ++ (whole ++ (fraction ++ (exponent ++ rest)))) =
      if fraction.isEmpty && exponent.isEmpty then
        if maxDigits < whole.length then .error (.longInteger whole.length)
        else
          let n : Int := Text.digitsValue whole
          .ok (.int (if sign.isEmpty then n else -n), rest)
      else .ok (.real (sign ++ whole ++ fraction ++ exponent), rest) := by
  have hfirst : ∃ d ds, whole = d :: ds ∧ d ≠ CodePoint.ofChar '-' := by
    rcases hwhole with rfl | ⟨⟨hne, hdigits⟩, -⟩
    · exact ⟨_, [], rfl, by decide⟩
    · obtain ⟨d, ds, rfl⟩ := List.exists_cons_of_ne_nil hne
      refine ⟨d, ds, rfl, ?_⟩
      rintro rfl
      exact absurd (hdigits _ List.mem_cons_self) (by decide)
  have hwholePart := wholePart?_append hwhole
    (noDigit_head?_afterWhole hfraction hexponent hrest)
  have hfractionPart := fractionPart_append hfraction
    (noPoint_head?_afterFraction hexponent hrest)
  have hexponentPart := exponentPart_append hexponent hrest
  unfold readNumber
  rcases hsign with rfl | rfl
  · obtain ⟨d, ds, rfl, hd⟩ := hfirst
    rw [List.cons_append] at hwholePart
    simp only [List.nil_append, List.cons_append, if_neg hd, hwholePart, hfractionPart,
      hexponentPart]
  · simp only [List.singleton_append, if_true, hwholePart, hfractionPart, hexponentPart]

/-! ## Values that are numbers -/

def BeginsNumber (t : Text) : Prop :=
  ∃ d ds, d.isDigit = true ∧ (t = d :: ds ∨ t = CodePoint.ofChar '-' :: d :: ds)

theorem beginsNumber_whole {sign whole : Text} (rest : Text)
    (hsign : sign = [] ∨ sign = [CodePoint.ofChar '-']) (hwhole : IsWhole whole) :
    BeginsNumber (sign ++ (whole ++ rest)) := by
  have hfirst : ∃ d ds, whole = d :: ds ∧ d.isDigit = true := by
    rcases hwhole with rfl | ⟨⟨hne, hdigits⟩, -⟩
    · exact ⟨_, [], rfl, rfl⟩
    · obtain ⟨d, ds, rfl⟩ := List.exists_cons_of_ne_nil hne
      exact ⟨d, ds, rfl, hdigits d List.mem_cons_self⟩
  obtain ⟨d, ds, rfl, hd⟩ := hfirst
  rcases hsign with rfl | rfl
  · exact ⟨d, ds ++ rest, hd, .inl rfl⟩
  · exact ⟨d, ds ++ rest, hd, .inr rfl⟩

theorem ne_ofChar_of_isDigit {d : CodePoint} {c : Char} (hd : d.isDigit = true)
    (hc : (CodePoint.ofChar c).isDigit = false) : d ≠ CodePoint.ofChar c := by
  rintro rfl
  rw [hd] at hc
  cases hc

theorem readWord?_of_beginsNumber {t : Text} (ht : BeginsNumber t) : readWord? t = none := by
  obtain ⟨d, ds, hd, rfl | rfl⟩ := ht
  · have hn := ne_ofChar_of_isDigit (c := 'n') hd rfl
    have ht := ne_ofChar_of_isDigit (c := 't') hd rfl
    have hf := ne_ofChar_of_isDigit (c := 'f') hd rfl
    have hN := ne_ofChar_of_isDigit (c := 'N') hd rfl
    have hI := ne_ofChar_of_isDigit (c := 'I') hd rfl
    have hminus := ne_ofChar_of_isDigit (c := '-') hd rfl
    simp [readWord?, words, Text.ofString, Text.dropStart?, hn.symm, ht.symm, hf.symm, hN.symm,
      hI.symm, hminus.symm]
  · have hI := ne_ofChar_of_isDigit (c := 'I') hd rfl
    have hne : ∀ {c : Char}, c ≠ '-' → CodePoint.ofChar c ≠ CodePoint.ofChar '-' := fun hc =>
      CodePoint.ofChar_injective.ne hc
    have hn := hne (show 'n' ≠ '-' by decide)
    have ht := hne (show 't' ≠ '-' by decide)
    have hf := hne (show 'f' ≠ '-' by decide)
    have hN := hne (show 'N' ≠ '-' by decide)
    have hI' := hne (show 'I' ≠ '-' by decide)
    simp [readWord?, words, Text.ofString, Text.dropStart?, hI.symm, hn, ht, hf, hN, hI']

theorem readValue_of_beginsNumber {t : Text} (ht : BeginsNumber t) (fuel : Nat) :
    readValue (fuel + 1) t = readNumber t := by
  have hword := readWord?_of_beginsNumber ht
  obtain ⟨d, ds, hd, rfl | rfl⟩ := ht
  · have hquote := ne_ofChar_of_isDigit (c := '"') hd rfl
    have hbracket := ne_ofChar_of_isDigit (c := '[') hd rfl
    have hbrace := ne_ofChar_of_isDigit (c := '\x7b') hd rfl
    rw [readValue, if_neg hquote, if_neg hbracket, if_neg hbrace, hword]
  · rw [readValue, if_neg (by decide), if_neg (by decide), if_neg (by decide), hword]

theorem isWhole_ofNat (n : Nat) : IsWhole (Text.ofNat n) := by
  by_cases hn : n = 0
  · subst hn
    exact .inl Text.ofNat_zero
  · obtain ⟨d, ds, hds, hd⟩ := Text.exists_ofNat_eq_cons (Nat.pos_of_ne_zero hn)
    refine .inr ⟨⟨Text.ofNat_ne_nil n, fun c hc => Text.isDigit_of_mem_ofNat hc⟩, ?_⟩
    rw [hds]
    exact fun h => hd (Option.some.inj h)

theorem readValue_int {n : Int} {rest : Text} (hn : (Text.ofNat n.natAbs).length ≤ maxDigits)
    (hrest : EndsNumber rest) (fuel : Nat) :
    readValue (fuel + 1) (Text.ofInt n ++ rest) = .ok (.int n, rest) := by
  cases n with
  | ofNat n =>
      have hlength : (Text.ofNat n).length ≤ maxDigits := hn
      have hwhole := isWhole_ofNat n
      have hparts := readNumber_parts (.inl rfl) hwhole (.inl rfl) (.inl rfl) hrest
      have hbegins := beginsNumber_whole rest (.inl rfl) hwhole
      simp only [List.nil_append] at hparts hbegins
      rw [Text.ofInt, readValue_of_beginsNumber hbegins, hparts]
      simp only [List.isEmpty_nil, Bool.and_self, if_true, if_neg (Nat.not_lt.mpr hlength),
        Text.digitsValue_ofNat]
      rfl
  | negSucc n =>
      have hlength : (Text.ofNat (n + 1)).length ≤ maxDigits := hn
      have hwhole := isWhole_ofNat (n + 1)
      have hparts := readNumber_parts (.inr rfl) hwhole (.inl rfl) (.inl rfl) hrest
      have hbegins := beginsNumber_whole rest (.inr rfl) hwhole
      simp only [List.nil_append, List.singleton_append] at hparts hbegins
      rw [Text.ofInt, List.cons_append, readValue_of_beginsNumber hbegins, hparts]
      simp only [List.isEmpty_nil, Bool.and_self, if_true, if_neg (Nat.not_lt.mpr hlength),
        Text.digitsValue_ofNat]
      rfl

theorem readValue_real {literal rest : Text} (hliteral : IsReal literal)
    (hrest : EndsNumber rest) (fuel : Nat) :
    readValue (fuel + 1) (literal ++ rest) = .ok (.real literal, rest) := by
  cases hliteral with
  | nan => rfl
  | infinity => rfl
  | negInfinity => rfl
  | @number sign whole fraction exponent hsign hwhole hfraction hexponent hreal =>
      have hparts := readNumber_parts hsign hwhole hfraction hexponent hrest
      have hbegins := beginsNumber_whole (fraction ++ (exponent ++ rest)) hsign hwhole
      have hnotInt : (fraction.isEmpty && exponent.isEmpty) = false := by
        rcases hreal with h | h <;> simp [h]
      simp only [List.append_assoc] at hparts ⊢
      rw [readValue_of_beginsNumber hbegins, hparts, hnotInt]
      rfl

theorem readValue_null (rest : Text) (fuel : Nat) :
    readValue (fuel + 1) (Text.ofString "null" ++ rest) = .ok (.null, rest) := rfl

theorem readValue_bool (b : Bool) (rest : Text) (fuel : Nat) :
    readValue (fuel + 1) (Text.ofString (if b then "true" else "false") ++ rest) =
      .ok (.bool b, rest) := by
  cases b <;> rfl

end SchemaDocs.Json
