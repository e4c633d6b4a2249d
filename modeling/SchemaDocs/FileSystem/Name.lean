import SchemaDocs.Text.Utf8
/-!
# Names on disk

A disk knows names as bytes, and a path spells them in UTF-8.  A byte that is part of no character
is spelled as a surrogate of its own, from U+DC80 for 0x80 to U+DCFF for 0xFF.  The other surrogates
stand for nothing, so a text with one of them is no path.
-/

namespace SchemaDocs.FileSystem.Name

/-- Whether a code point is the surrogate of a byte. -/
def isByte (c : CodePoint) : Bool :=
  0xDC80 ≤ c.value && c.value ≤ 0xDCFF

/-- The surrogate of a byte. -/
def ofByte (b : UInt8) : CodePoint :=
  .ofNatD (0xDC00 + b.toNat)

/-- The first surrogate that stands for nothing, with the surrogates that follow it. -/
def fault? (t : Text) : Option Utf8.EncodeFault :=
  Utf8.firstFault? (fun c => c.isSurrogate && !isByte c) 0 t

def encode (t : Text) : Bytes :=
  t.flatMap fun c => if isByte c then [.ofNat (c.value - 0xDC00)] else Utf8.encodeOne c

/-- The text that spells some bytes.  The first `skip` of them belong to a character that has been
read. -/
def decodeFrom (skip : Nat) : Bytes → Text
  | [] => []
  | first :: rest =>
    match skip with
    | skip + 1 => decodeFrom skip rest
    | 0 =>
      match Utf8.decodeOne first rest with
      | .error _ => ofByte first :: decodeFrom 0 rest
      | .ok (c, length) => c :: decodeFrom (length - 1) rest

def decode (bytes : Bytes) : Text :=
  decodeFrom 0 bytes

/-- A name as a disk lists it.  Surrogates of bytes that make up a character turn into that
character; a name without surrogates is listed as it is spelled. -/
def listed (t : Text) : Text :=
  if t.any CodePoint.isSurrogate then decode (encode t) else t

end SchemaDocs.FileSystem.Name
