import SchemaDocs.Proofs.Text.Utf8
/-!
# Reading back bytes

The bytes of a text are decoded as the text.  A code point has one form for each range of numbers,
and each form is told from the others by its first byte.

* `decodeOne_encodeOne`: one code point;
* `decode_of_encode`: a text.
-/

namespace SchemaDocs.Utf8

open Text (SurrogateFree)

/-! ## Bytes -/

theorem toNat_byte {n : Nat} (h : n < 0x100) : (UInt8.ofNat n).toNat = n := by
  rw [UInt8.toNat_ofNat']
  exact Nat.mod_eq_of_lt h

theorem toNat_continuation (n : Nat) :
    (UInt8.ofNat (0x80 + n % 0x40)).toNat = 0x80 + n % 0x40 :=
  toNat_byte (by omega)

theorem payload_continuation (n : Nat) : payload (.ofNat (0x80 + n % 0x40)) = n % 0x40 := by
  rw [payload, toNat_continuation]
  omega

theorem isContinuation_continuation (n : Nat) :
    isContinuation (.ofNat (0x80 + n % 0x40)) = true := by
  rw [isContinuation, Bool.and_eq_true, decide_eq_true_eq, decide_eq_true_eq,
    UInt8.le_iff_toNat_le, UInt8.le_iff_toNat_le, toNat_continuation]
  exact ⟨Nat.le_add_right _ _, show 0x80 + n % 0x40 ≤ 0xBF by omega⟩

/-- The four first bytes after which not every byte can follow that continues a character. -/
theorem canFollow_continuation {first : UInt8} {n : Nat}
    (hE0 : first.toNat = 0xE0 → 0x20 ≤ n % 0x40) (hED : first.toNat = 0xED → n % 0x40 < 0x20)
    (hF0 : first.toNat = 0xF0 → 0x10 ≤ n % 0x40) (hF4 : first.toNat = 0xF4 → n % 0x40 < 0x10) :
    canFollow first (.ofNat (0x80 + n % 0x40)) = true := by
  have hsecond := toNat_continuation n
  simp only [canFollow, isContinuation_continuation, Bool.true_and, Bool.and_eq_true,
    Bool.not_eq_true', Bool.and_eq_false_iff, beq_eq_false_iff_ne, decide_eq_false_iff_not,
    ne_eq, ← UInt8.toNat_inj, UInt8.lt_iff_toNat_lt, UInt8.le_iff_toNat_le, hsecond,
    UInt8.reduceToNat]
  omega

/-! ## One code point -/

theorem decodeOne_one {n : Nat} (hn : n < 0x80) (rest : Bytes) :
    decodeOne (.ofNat n) rest = .ok (.ofNatD n, 1) := by
  have hfirst : (UInt8.ofNat n).toNat = n := toNat_byte (by omega)
  simp only [decodeOne, UInt8.lt_iff_toNat_lt, hfirst, UInt8.reduceToNat]
  rw [if_pos hn]

theorem decodeOne_two {n : Nat} (hlow : 0x80 ≤ n) (hhigh : n < 0x800) (rest : Bytes) :
    decodeOne (.ofNat (0xC0 + n / 0x40)) (.ofNat (0x80 + n % 0x40) :: rest) =
      .ok (.ofNatD n, 2) := by
  have hfirst : (UInt8.ofNat (0xC0 + n / 0x40)).toNat = 0xC0 + n / 0x40 := toNat_byte (by omega)
  have hfollow : canFollow (.ofNat (0xC0 + n / 0x40)) (.ofNat (0x80 + n % 0x40)) = true := by
    apply canFollow_continuation <;> omega
  have hparts : (0xC0 + n / 0x40) % 0x20 * 0x40 + n % 0x40 = n := by omega
  simp only [decodeOne, UInt8.lt_iff_toNat_lt, hfirst, UInt8.reduceToNat, Bool.or_eq_true,
    decide_eq_true_eq, hfollow, payload_continuation, hparts]
  rw [if_neg (by omega), if_neg (by omega), if_neg (by decide), if_pos (by omega)]

theorem decodeOne_three {n : Nat} (hlow : 0x800 ≤ n) (hhigh : n < 0x10000)
    (hfree : ¬ (0xD800 ≤ n ∧ n ≤ 0xDFFF)) (rest : Bytes) :
    decodeOne (.ofNat (0xE0 + n / 0x1000))
        (.ofNat (0x80 + n / 0x40 % 0x40) :: .ofNat (0x80 + n % 0x40) :: rest) =
      .ok (.ofNatD n, 3) := by
  have hfirst : (UInt8.ofNat (0xE0 + n / 0x1000)).toNat = 0xE0 + n / 0x1000 :=
    toNat_byte (by omega)
  have hfollow : canFollow (.ofNat (0xE0 + n / 0x1000)) (.ofNat (0x80 + n / 0x40 % 0x40)) =
      true := by
    apply canFollow_continuation <;> omega
  have hparts : (0xE0 + n / 0x1000) % 0x10 * 0x1000 + n / 0x40 % 0x40 * 0x40 + n % 0x40 = n := by
    omega
  simp only [decodeOne, UInt8.lt_iff_toNat_lt, hfirst, UInt8.reduceToNat, Bool.or_eq_true,
    decide_eq_true_eq, hfollow, isContinuation_continuation, payload_continuation, hparts]
  rw [if_neg (by omega), if_neg (by omega), if_neg (by decide), if_neg (by omega),
    if_neg (by decide), if_pos (by omega)]

theorem decodeOne_four {n : Nat} (hlow : 0x10000 ≤ n) (hhigh : n < 0x110000) (rest : Bytes) :
    decodeOne (.ofNat (0xF0 + n / 0x40000))
        (.ofNat (0x80 + n / 0x1000 % 0x40) :: .ofNat (0x80 + n / 0x40 % 0x40) ::
          .ofNat (0x80 + n % 0x40) :: rest) =
      .ok (.ofNatD n, 4) := by
  have hfirst : (UInt8.ofNat (0xF0 + n / 0x40000)).toNat = 0xF0 + n / 0x40000 :=
    toNat_byte (by omega)
  have hfollow : canFollow (.ofNat (0xF0 + n / 0x40000)) (.ofNat (0x80 + n / 0x1000 % 0x40)) =
      true := by
    apply canFollow_continuation <;> omega
  have hparts : (0xF0 + n / 0x40000) % 0x08 * 0x40000 + n / 0x1000 % 0x40 * 0x1000 +
      n / 0x40 % 0x40 * 0x40 + n % 0x40 = n := by
    omega
  simp only [decodeOne, UInt8.lt_iff_toNat_lt, hfirst, UInt8.reduceToNat, Bool.or_eq_true,
    decide_eq_true_eq, hfollow, isContinuation_continuation, payload_continuation, hparts]
  rw [if_neg (by omega), if_neg (by omega), if_neg (by decide), if_neg (by omega),
    if_neg (by decide), if_neg (by omega), if_neg (by decide)]

theorem decodeOne_encodeOne {c : CodePoint} (hc : c.isSurrogate = false) (rest : Bytes) :
    ∃ first tail, encodeOne c = first :: tail ∧
      decodeOne first (tail ++ rest) = .ok (c, tail.length + 1) := by
  have hvalue : CodePoint.ofNatD c.value = c := dif_pos c.isLt
  have hfree : ¬ (0xD800 ≤ c.value ∧ c.value ≤ 0xDFFF) := by
    simpa only [CodePoint.isSurrogate, Bool.and_eq_false_iff, decide_eq_false_iff_not,
      ← not_and_or] using hc
  unfold encodeOne
  dsimp only
  by_cases hone : c.value < 0x80
  · refine ⟨_, _, if_pos hone, ?_⟩
    rw [decodeOne_one hone, hvalue]
    rfl
  rw [if_neg hone]
  by_cases htwo : c.value < 0x800
  · refine ⟨_, _, if_pos htwo, ?_⟩
    rw [List.singleton_append, decodeOne_two (by omega) htwo, hvalue]
    rfl
  rw [if_neg htwo]
  by_cases hthree : c.value < 0x10000
  · refine ⟨_, _, if_pos hthree, ?_⟩
    rw [List.cons_append, List.singleton_append, decodeOne_three (by omega) hthree hfree, hvalue]
    rfl
  · refine ⟨_, _, if_neg hthree, ?_⟩
    rw [List.cons_append, List.cons_append, List.singleton_append,
      decodeOne_four (by omega) c.isLt, hvalue]
    rfl

/-! ## Texts -/

theorem decodeFrom_append (start : Nat) (done : Text) (tail rest : Bytes) :
    decodeFrom start tail.length done (tail ++ rest) =
      decodeFrom (start + tail.length) 0 done rest := by
  induction tail generalizing start with
  | nil => rfl
  | cons b tail ih =>
      rw [List.length_cons, List.cons_append, decodeFrom, ih, Nat.add_right_comm, Nat.add_assoc]

theorem decodeFrom_flatMap {t : Text} (ht : SurrogateFree t) (start : Nat) (done : Text) :
    decodeFrom start 0 done (t.flatMap encodeOne) = .ok (done.reverse ++ t) := by
  induction t generalizing start done with
  | nil => rw [List.flatMap_nil, decodeFrom, List.append_nil]
  | cons c rest ih =>
      obtain ⟨hc, hrest⟩ := List.forall_mem_cons.mp ht
      obtain ⟨first, tail, hbytes, hfirst⟩ := decodeOne_encodeOne hc (rest.flatMap encodeOne)
      rw [List.flatMap_cons, hbytes, List.cons_append, decodeFrom, hfirst]
      dsimp only
      rw [Nat.add_sub_cancel, decodeFrom_append, ih hrest, List.reverse_cons, List.append_assoc,
        List.singleton_append]

theorem decode_of_encode {t : Text} {bytes : Bytes} (h : encode t = .ok bytes) :
    decode bytes = .ok t := by
  have ht : SurrogateFree t := exists_encode_eq_ok.mp ⟨bytes, h⟩
  unfold encode at h
  split at h
  · cases h
  · cases h
    exact decodeFrom_flatMap ht 0 []

end SchemaDocs.Utf8
