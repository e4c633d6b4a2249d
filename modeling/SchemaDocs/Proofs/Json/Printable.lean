import SchemaDocs.Proofs.Json.RoundTrip
/-!
# Characters of printed documents

A printed document is printable ASCII, whatever its strings hold, as long as the literals of its
numbers are such.

* `isPrintable_text`: the characters of a printed document;
* `surrogateFree_text`, `unifyNewlines_text`: so it has bytes, and its lines end in one way.
-/

namespace SchemaDocs.Json

/-! ## Literals -/

mutual

def RealLiterals : Json → Prop
  | .real literal => IsReal literal
  | .array items => RealLiteralsItems items
  | .object members => RealLiteralsMembers members
  | _ => True

def RealLiteralsItems : List Json → Prop
  | [] => True
  | j :: rest => RealLiterals j ∧ RealLiteralsItems rest

def RealLiteralsMembers : List (Text × Json) → Prop
  | [] => True
  | (_, j) :: rest => RealLiterals j ∧ RealLiteralsMembers rest

end

theorem realLiteralsMembers_iff {members : List (Text × Json)} :
    RealLiteralsMembers members ↔ ∀ m ∈ members, RealLiterals m.2 := by
  induction members with
  | nil => simp [RealLiteralsMembers]
  | cons m rest ih => rw [RealLiteralsMembers, ih, List.forall_mem_cons]

mutual

theorem Readable.realLiterals : ∀ {j : Json}, Readable j → RealLiterals j
  | .null, _ | .bool _, _ | .int _, _ | .string _, _ => trivial
  | .real _, h => h
  | .array _, h => realLiteralsItems_of_readable h
  | .object _, h => realLiteralsMembers_of_readable h.2

theorem realLiteralsItems_of_readable : ∀ {items : List Json}, ReadableItems items →
    RealLiteralsItems items
  | [], _ => trivial
  | _ :: _, h => ⟨Readable.realLiterals h.1, realLiteralsItems_of_readable h.2⟩

theorem realLiteralsMembers_of_readable : ∀ {members : List (Text × Json)},
    ReadableMembers members → RealLiteralsMembers members
  | [], _ => trivial
  | _ :: _, h => ⟨Readable.realLiterals h.2.1, realLiteralsMembers_of_readable h.2.2⟩

end

/-! ## Characters -/

def isPrintable (c : CodePoint) : Bool :=
  0x20 ≤ c.value && c.value ≤ 0x7E

theorem isPrintable_of_isPlain {c : CodePoint} (hc : isPlain c = true) : isPrintable c = true := by
  simp only [isPlain, isPrintable, Bool.and_eq_true, decide_eq_true_eq] at hc ⊢
  omega

theorem isPlain_hexDigit (n : Nat) : isPlain (Text.hexDigit n) = true := by
  have hdigits : ∀ d < 16, isPlain (CodePoint.ofChar (Nat.digitChar d)) = true := by decide
  exact hdigits (n % 16) (Nat.mod_lt n (by decide))

theorem isPlain_unicodeEscape (n : Nat) : ∀ c ∈ unicodeEscape n, isPlain c = true := by
  rw [unicodeEscape_eq, Text.hex_four]
  simp only [List.forall_mem_cons]
  exact ⟨rfl, rfl, isPlain_hexDigit _, isPlain_hexDigit _, isPlain_hexDigit _, isPlain_hexDigit _,
    fun c hc => absurd hc List.not_mem_nil⟩

theorem Written.eq_or_isPlain {c : CodePoint} {t : Text} (h : Written c t) :
    t = [c] ∧ isPrintable c = true ∨ ∀ d ∈ t, isPlain d = true := by
  cases h with
  | itself _ _ hprintable =>
      refine .inl ⟨rfl, ?_⟩
      rwa [isPrintable, Bool.and_eq_true, decide_eq_true_eq, decide_eq_true_eq]
  | @letter l _ hmem =>
      have hletters : ['"', '\\', 'b', 't', 'n', 'f', 'r'].all
          (fun l => isPlain (CodePoint.ofChar l)) = true := rfl
      have hl : isPlain (CodePoint.ofChar l) = true := List.all_eq_true.mp hletters l hmem
      exact .inr (List.forall_mem_cons.mpr ⟨rfl, List.forall_mem_singleton.mpr hl⟩)
  | unit _ => exact .inr (isPlain_unicodeEscape _)
  | pair _ =>
      exact .inr (List.forall_mem_append.mpr ⟨isPlain_unicodeEscape _, isPlain_unicodeEscape _⟩)

theorem isPrintable_escaped (c : CodePoint) : ∀ d ∈ escaped c, isPrintable d = true := by
  rcases (written_escaped c).eq_or_isPlain with ⟨heq, hc⟩ | hplain
  · rw [heq]
    exact List.forall_mem_singleton.mpr hc
  · exact fun d hd => isPrintable_of_isPlain (hplain d hd)

theorem isPrintable_stringText (t : Text) : ∀ c ∈ stringText t, isPrintable c = true := by
  refine List.forall_mem_cons.mpr ⟨rfl, List.forall_mem_append.mpr ⟨?_, by decide⟩⟩
  intro c hc
  obtain ⟨d, -, hd⟩ := List.mem_flatMap.mp hc
  exact isPrintable_escaped d c hd

theorem isPrintable_memberText (key : Text) {t : Text} (ht : ∀ c ∈ t, isPrintable c = true) :
    ∀ c ∈ stringText key ++ ": " ++ t, isPrintable c = true := by
  have hkey := List.forall_mem_append.mpr
    ⟨isPrintable_stringText key, (by decide : ∀ c ∈ Text.ofString ": ", isPrintable c = true)⟩
  exact List.forall_mem_append.mpr ⟨hkey, ht⟩

mutual

theorem isPrintable_text : ∀ j : Json, RealLiterals j → ∀ c ∈ j.text, isPrintable c = true
  | .null, _ => by
      rw [text]
      decide
  | .bool true, _ => by
      rw [text]
      decide
  | .bool false, _ => by
      rw [text]
      decide
  | .int n, _ => fun c hc => isPrintable_of_isPlain (isPlain_ofInt n c hc)
  | .real _, hj => fun c hc => isPrintable_of_isPlain (isPlain_of_isReal hj c hc)
  | .string t, _ => isPrintable_stringText t
  | .array items, hj => List.forall_mem_cons.mpr
      ⟨rfl, List.forall_mem_append.mpr ⟨isPrintable_itemsText items hj, by decide⟩⟩
  | .object members, hj => List.forall_mem_cons.mpr
      ⟨rfl, List.forall_mem_append.mpr ⟨isPrintable_membersText members hj, by decide⟩⟩

theorem isPrintable_itemsText : ∀ items : List Json, RealLiteralsItems items →
    ∀ c ∈ itemsText items, isPrintable c = true
  | [], _ => fun c hc => absurd hc List.not_mem_nil
  | [j], hj => isPrintable_text j hj.1
  | j :: k :: items, hj => by
      have hitem := List.forall_mem_append.mpr
        ⟨isPrintable_text j hj.1, (by decide : ∀ c ∈ Text.ofString ", ", isPrintable c = true)⟩
      have hrest := isPrintable_itemsText (k :: items) hj.2
      exact List.forall_mem_append.mpr ⟨hitem, hrest⟩

theorem isPrintable_membersText : ∀ members : List (Text × Json), RealLiteralsMembers members →
    ∀ c ∈ membersText members, isPrintable c = true
  | [], _ => fun c hc => absurd hc List.not_mem_nil
  | [(key, j)], hj => isPrintable_memberText key (isPrintable_text j hj.1)
  | (key, j) :: m :: members, hj => by
      have hmember := List.forall_mem_append.mpr
        ⟨isPrintable_memberText key (isPrintable_text j hj.1),
          (by decide : ∀ c ∈ Text.ofString ", ", isPrintable c = true)⟩
      have hrest := isPrintable_membersText (m :: members) hj.2
      exact List.forall_mem_append.mpr ⟨hmember, hrest⟩

end

theorem surrogateFree_of_isPrintable {t : Text} (ht : ∀ c ∈ t, isPrintable c = true) :
    Text.SurrogateFree t := by
  intro c hc
  have hprintable := ht c hc
  rw [isPrintable, Bool.and_eq_true, decide_eq_true_eq, decide_eq_true_eq] at hprintable
  rw [CodePoint.isSurrogate, Bool.and_eq_false_iff, decide_eq_false_iff_not,
    decide_eq_false_iff_not]
  omega

theorem unifyNewlines_of_isPrintable {t : Text} (ht : ∀ c ∈ t, isPrintable c = true) :
    t.unifyNewlines = t := by
  have hreturn : ∀ {c : CodePoint}, isPrintable c = true → c ≠ CodePoint.ofChar '\r' := by
    rintro _ hc rfl
    exact absurd hc (by decide)
  induction t with
  | nil => rfl
  | cons c rest ih =>
      obtain ⟨hc, hrest⟩ := List.forall_mem_cons.mp ht
      cases rest with
      | nil => rw [Text.unifyNewlines, if_neg (hreturn hc)]
      | cons d rest => rw [Text.unifyNewlines, if_neg (hreturn hc), ih hrest]

theorem surrogateFree_text {j : Json} (hj : RealLiterals j) : Text.SurrogateFree j.text :=
  surrogateFree_of_isPrintable (isPrintable_text j hj)

theorem unifyNewlines_text {j : Json} (hj : RealLiterals j) : j.text.unifyNewlines = j.text :=
  unifyNewlines_of_isPrintable (isPrintable_text j hj)

end SchemaDocs.Json
