import SchemaDocs.Text.Numeral
/-!
# UTF-8

Encoding fails at the first run of surrogates.  Decoding accepts the shortest forms of scalar values
only and fails at the first byte sequence that is none; the fault names the bytes that could still
have begun a character.
-/

namespace SchemaDocs

abbrev Bytes := List UInt8

namespace Utf8

open Text (ofNat hex)

/-- A run of surrogates, which no bytes stand for. -/
structure EncodeFault where
  /-- The first surrogate of the run. -/
  codePoint : CodePoint
  /-- How many code points stand before the run. -/
  start : Nat
  /-- How many surrogates the run has. -/
  length : Nat
  deriving DecidableEq

inductive DecodeReason where
  | invalidStart
  | invalidContinuation
  | unexpectedEnd
  deriving DecidableEq

/-- A sequence of bytes that is no character. -/
structure DecodeFault where
  reason : DecodeReason
  /-- The first byte of the sequence. -/
  byte : UInt8
  /-- How many bytes stand before the sequence. -/
  start : Nat
  /-- How many bytes the sequence has. -/
  length : Nat
  deriving DecidableEq

def encodeOne (c : CodePoint) : Bytes :=
  let n := c.value
  if n < 0x80 then [.ofNat n]
  else if n < 0x800 then [.ofNat (0xC0 + n / 0x40), .ofNat (0x80 + n % 0x40)]
  else if n < 0x10000 then
    [.ofNat (0xE0 + n / 0x1000), .ofNat (0x80 + n / 0x40 % 0x40), .ofNat (0x80 + n % 0x40)]
  else
    [.ofNat (0xF0 + n / 0x40000), .ofNat (0x80 + n / 0x1000 % 0x40),
      .ofNat (0x80 + n / 0x40 % 0x40), .ofNat (0x80 + n % 0x40)]

/-- The first code point that cannot be encoded, with the surrogates that follow it.  `start` code
points stand before the text. -/
def firstFault? (isFault : CodePoint → Bool) (start : Nat) : Text → Option EncodeFault
  | [] => none
  | c :: rest =>
    if isFault c then some ⟨c, start, 1 + (rest.takeWhile CodePoint.isSurrogate).length⟩
    else firstFault? isFault (start + 1) rest

def encode (t : Text) : Except EncodeFault Bytes :=
  match firstFault? CodePoint.isSurrogate 0 t with
  | some fault => .error fault
  | none => .ok (t.flatMap encodeOne)

/-- A byte that continues a character. -/
def isContinuation (b : UInt8) : Bool :=
  0x80 ≤ b && b ≤ 0xBF

/-- Whether a second byte can follow a first one: it continues a character, and the two begin
neither a longer form than needed, nor a surrogate, nor a number above the last code point. -/
def canFollow (first second : UInt8) : Bool :=
  isContinuation second &&
    !(first == 0xE0 && second < 0xA0) && !(first == 0xED && 0xA0 ≤ second) &&
    !(first == 0xF0 && second < 0x90) && !(first == 0xF4 && 0x90 ≤ second)

/-- The six bits that a continuation byte carries. -/
def payload (b : UInt8) : Nat :=
  b.toNat % 0x40

/-- The first character of some bytes and how many bytes it takes, or the reason why there is none
and the length of the sequence at fault. -/
def decodeOne (first : UInt8) (rest : Bytes) : Except (DecodeReason × Nat) (CodePoint × Nat) :=
  if first < 0x80 then .ok (.ofNatD first.toNat, 1)
  else if first < 0xC2 || 0xF4 < first then .error (.invalidStart, 1)
  else
    match rest with
    | [] => .error (.unexpectedEnd, 1)
    | b :: rest =>
      if !canFollow first b then .error (.invalidContinuation, 1)
      else if first < 0xE0 then .ok (.ofNatD (first.toNat % 0x20 * 0x40 + payload b), 2)
      else
        match rest with
        | [] => .error (.unexpectedEnd, 2)
        | c :: rest =>
          if !isContinuation c then .error (.invalidContinuation, 2)
          else if first < 0xF0 then
            .ok (.ofNatD (first.toNat % 0x10 * 0x1000 + payload b * 0x40 + payload c), 3)
          else
            match rest with
            | [] => .error (.unexpectedEnd, 3)
            | d :: _ =>
              if !isContinuation d then .error (.invalidContinuation, 3)
              else
                .ok (.ofNatD (first.toNat % 0x08 * 0x40000 + payload b * 0x1000 + payload c * 0x40
                  + payload d), 4)

/-- The text of some bytes.  `start` bytes stand before them, the first `skip` of them belong to a
character that has been read, and `done` holds the characters read, the last one first. -/
def decodeFrom (start skip : Nat) (done : Text) : Bytes → Except DecodeFault Text
  | [] => .ok done.reverse
  | first :: rest =>
    match skip with
    | skip + 1 => decodeFrom (start + 1) skip done rest
    | 0 =>
      match decodeOne first rest with
      | .error (reason, length) => .error ⟨reason, first, start, length⟩
      | .ok (c, length) => decodeFrom (start + 1) (length - 1) (c :: done) rest

def decode (bytes : Bytes) : Except DecodeFault Text :=
  decodeFrom 0 0 [] bytes

def DecodeReason.message : DecodeReason → Text
  | .invalidStart => "invalid start byte"
  | .invalidContinuation => "invalid continuation byte"
  | .unexpectedEnd => "unexpected end of data"

/-- One byte is named by its value and position, several by their first and last position. -/
def DecodeFault.message (fault : DecodeFault) : Text :=
  if fault.length = 1 then
    "'utf-8' codec can't decode byte 0x" ++ hex 2 fault.byte.toNat ++ " in position " ++
      ofNat fault.start ++ ": " ++ fault.reason.message
  else
    "'utf-8' codec can't decode bytes in position " ++ ofNat fault.start ++ "-" ++
      ofNat (fault.start + fault.length - 1) ++ ": " ++ fault.reason.message

/-- One surrogate is named by its number and position, several by their first and last position. -/
def EncodeFault.message (fault : EncodeFault) : Text :=
  if fault.length = 1 then
    "'utf-8' codec can't encode character '\\u" ++ hex 4 fault.codePoint.value ++
      "' in position " ++ ofNat fault.start ++ ": surrogates not allowed"
  else
    "'utf-8' codec can't encode characters in position " ++ ofNat fault.start ++ "-" ++
      ofNat (fault.start + fault.length - 1) ++ ": surrogates not allowed"

end Utf8

end SchemaDocs
