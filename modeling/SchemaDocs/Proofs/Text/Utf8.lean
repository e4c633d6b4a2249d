import SchemaDocs.Proofs.Text.Surrogate
import SchemaDocs.Text.Utf8
/-!
# Texts that have bytes

A text can be encoded exactly if none of its code points is a surrogate.
-/

namespace SchemaDocs.Utf8

open Text (SurrogateFree)

theorem firstFault?_eq_none {isFault : CodePoint → Bool} {start : Nat} {t : Text} :
    firstFault? isFault start t = none ↔ ∀ c ∈ t, isFault c = false := by
  induction t generalizing start with
  | nil => simp [firstFault?]
  | cons c rest ih =>
      rw [firstFault?, List.forall_mem_cons]
      cases hc : isFault c with
      | false => simp [ih]
      | true => simp

theorem exists_encode_eq_ok {t : Text} : (∃ bytes, encode t = .ok bytes) ↔ SurrogateFree t := by
  rw [SurrogateFree, ← @firstFault?_eq_none _ 0, encode]
  cases firstFault? CodePoint.isSurrogate 0 t with
  | none => simp
  | some fault => simp

theorem head?_of_encode {t : Text} {bytes : Bytes} (h : encode t = .ok bytes) {c : CodePoint}
    (hc : t.head? = some c) (hascii : c.value < 0x80) : bytes.head? = some (.ofNat c.value) := by
  obtain ⟨rest, rfl⟩ := List.head?_eq_some_iff.mp hc
  unfold encode at h
  split at h
  · cases h
  · cases h
    rw [List.flatMap_cons, encodeOne, if_pos hascii]
    rfl

/-- What writing a text leaves in a file: the bytes of the text, or nothing if it has none. -/
def bytesLeft (t : Text) : Bytes :=
  match encode t with
  | .ok bytes => bytes
  | .error _ => []

theorem bytesLeft_of_ok {t : Text} {bytes : Bytes} (h : encode t = .ok bytes) :
    bytesLeft t = bytes := by
  rw [bytesLeft, h]

theorem bytesLeft_of_error {t : Text} {fault : EncodeFault} (h : encode t = .error fault) :
    bytesLeft t = [] := by
  rw [bytesLeft, h]

end SchemaDocs.Utf8
