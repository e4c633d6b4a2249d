import SchemaDocs.Json.Basic
/-!
# Reading JSON

A reader for JSON documents that also takes `NaN`, `Infinity` and `-Infinity`, lets the last member
of a name win, keeps lone surrogates, and refuses whole numbers of more than 4300 digits.  A fault
says what was expected and where.

The functions of the reader take the text that is left and return what they read and the text after
it.  A place in the text is the number of code points left there.
-/

namespace SchemaDocs.Json

inductive Cause where
  | byteOrderMark
  | noValue
  | noName
  | noColon
  | noComma
  | extraData
  | unterminatedString
  | controlCharacter
  | badEscape
  | badUnicodeEscape
  deriving DecidableEq

def Cause.message : Cause → Text
  | .byteOrderMark => "Unexpected UTF-8 BOM (decode using utf-8-sig)"
  | .noValue => "Expecting value"
  | .noName => "Expecting property name enclosed in double quotes"
  | .noColon => "Expecting ':' delimiter"
  | .noComma => "Expecting ',' delimiter"
  | .extraData => "Extra data"
  | .unterminatedString => "Unterminated string starting at"
  | .controlCharacter => "Invalid control character at"
  | .badEscape => "Invalid \\escape"
  | .badUnicodeEscape => "Invalid \\uXXXX escape"

inductive Halt where
  /-- The text is no document; `left` code points are left where that shows. -/
  | malformed (cause : Cause) (left : Nat)
  | longInteger (digits : Nat)
  deriving DecidableEq

structure Place where
  position : Nat
  line : Nat
  column : Nat
  deriving DecidableEq

inductive Error where
  | malformed (cause : Cause) (place : Place)
  | longInteger (digits : Nat)
  deriving DecidableEq

def Place.text (p : Place) : Text :=
  "line " ++ Text.ofNat p.line ++ " column " ++ Text.ofNat p.column ++ " (char " ++
    Text.ofNat p.position ++ ")"

def longIntegerMessage (digits : Nat) : Text :=
  "Exceeds the limit (4300 digits) for integer string conversion: value has " ++
    Text.ofNat digits ++ " digits; use sys.set_int_max_str_digits() to increase the limit"

def Error.message : Error → Text
  | .malformed cause place => cause.message ++ ": " ++ place.text
  | .longInteger digits => longIntegerMessage digits

/-- The place after the first `position` code points: lines and columns count from one. -/
def Place.after (t : Text) (position : Nat) : Place :=
  let before := t.take position
  { position
    line := before.count ('\n' : CodePoint) + 1
    column := (before.reverse.takeWhile fun c => c != ('\n' : CodePoint)).length + 1 }

/-- Space, tab, line feed and carriage return. -/
def isSpace (c : CodePoint) : Bool :=
  c.value == 0x20 || c.value == 0x09 || c.value == 0x0A || c.value == 0x0D

def skipSpace (t : Text) : Text :=
  t.dropWhile isSpace

/-- The four hexadecimal digits at the start of a text.  One more code point has to follow them. -/
def fourDigits? : Text → Option Nat
  | a :: b :: c :: d :: _ :: _ => Text.hexValue? [a, b, c, d]
  | _ => none

def joinSurrogates (high low : Nat) : CodePoint :=
  .ofNatD (0x10000 + (high - 0xD800) * 0x400 + (low - 0xDC00))

def isHigh (n : Nat) : Bool :=
  0xD800 ≤ n && n ≤ 0xDBFF

def isLow (n : Nat) : Bool :=
  0xDC00 ≤ n && n ≤ 0xDFFF

/-- What the escapes of one letter stand for. -/
def letterEscape? (c : CodePoint) : Option CodePoint :=
  if c = '"' || c = '\\' || c = '/' then some c
  else if c = 'b' then some '\x08'
  else if c = 'f' then some '\x0c'
  else if c = 'n' then some '\n'
  else if c = 'r' then some '\r'
  else if c = 't' then some '\t'
  else none

/-- The code point of an escape, from the text after its backslash and `u`, and the number of code
points that were read there.  A high surrogate takes an escape after it into account, if at least
one code point follows that one, and is joined with it if that is a low surrogate. -/
def readUnicodeEscape (t : Text) : Except Halt (CodePoint × Nat) :=
  match fourDigits? t with
  | none => .error (.malformed .badUnicodeEscape (t.length + 1))
  | some n =>
    if !isHigh n then .ok (.ofNatD n, 4)
    else
      match t.drop 4 with
      | a :: b :: after =>
        if a = '\\' && b = 'u' && 5 ≤ (after.take 5).length then
          match fourDigits? after with
          | none => .error (.malformed .badUnicodeEscape (after.length + 1))
          | some m => if isLow m then .ok (joinSurrogates n m, 10) else .ok (.ofNatD n, 4)
        else .ok (.ofNatD n, 4)
      | _ => .ok (.ofNatD n, 4)

/-- The code point of an escape, from the text after its backslash, and the number of code points
that were read there.  `opening` is the text from the opening quote of the string on. -/
def readEscape (opening : Text) : Text → Except Halt (CodePoint × Nat)
  | [] => .error (.malformed .unterminatedString opening.length)
  | c :: rest =>
    if c = 'u' then (readUnicodeEscape rest).map fun (x, n) => (x, n + 1)
    else
      match letterEscape? c with
      | some x => .ok (x, 1)
      | none => .error (.malformed .badEscape (rest.length + 2))

/-- The rest of a string after its opening quote.  The first `skip` code points belong to an escape
that has been read, and `done` holds what has been read, the last code point first. -/
def readString (opening : Text) (skip : Nat) (done : Text) : Text → Except Halt (Text × Text)
  | [] => .error (.malformed .unterminatedString opening.length)
  | c :: rest =>
    match skip with
    | skip + 1 => readString opening skip done rest
    | 0 =>
      if c = '"' then .ok (done.reverse, rest)
      else if c.value < 0x20 then .error (.malformed .controlCharacter (rest.length + 1))
      else if c = '\\' then
        match readEscape opening rest with
        | .error halt => .error halt
        | .ok (x, length) => readString opening length (x :: done) rest
      else readString opening 0 (c :: done) rest

/-- The digits at the start of a text and the text after them. -/
def spanDigits (t : Text) : Text × Text :=
  (t.takeWhile CodePoint.isDigit, t.dropWhile CodePoint.isDigit)

/-- The whole part of a number: a zero, or digits that do not begin with one. -/
def wholePart? : Text → Option (Text × Text)
  | [] => none
  | c :: rest =>
    if c = '0' then some ([c], rest)
    else if c.isDigit then some (spanDigits (c :: rest))
    else none

/-- A point and at least one digit; nothing if the text does not begin so. -/
def fractionPart : Text → Text × Text
  | [] => ([], [])
  | c :: rest =>
    let (digits, after) := spanDigits rest
    if c = '.' && !digits.isEmpty then (c :: digits, after) else ([], c :: rest)

/-- An `e` of either case, a sign or none, and at least one digit; nothing if the text does not
begin so. -/
def exponentPart : Text → Text × Text
  | [] => ([], [])
  | e :: rest =>
    let (sign, unsigned) :=
      match rest with
      | c :: after => if c = '+' || c = '-' then ([c], after) else ([], rest)
      | [] => ([], rest)
    let (digits, after) := spanDigits unsigned
    if (e = 'e' || e = 'E') && !digits.isEmpty then (e :: (sign ++ digits), after)
    else ([], e :: rest)

/-- A number, from its sign on.  One with a fraction or an exponent is kept as it is written. -/
def readNumber (t : Text) : Except Halt (Json × Text) :=
  let (sign, unsigned) :=
    match t with
    | c :: rest => if c = '-' then ([c], rest) else ([], t)
    | [] => ([], t)
  match wholePart? unsigned with
  | none => .error (.malformed .noValue t.length)
  | some (whole, afterWhole) =>
    let (fraction, afterFraction) := fractionPart afterWhole
    let (exponent, after) := exponentPart afterFraction
    if fraction.isEmpty && exponent.isEmpty then
      if maxDigits < whole.length then .error (.longInteger whole.length)
      else
        let n : Int := Text.digitsValue whole
        .ok (.int (if sign.isEmpty then n else -n), after)
    else .ok (.real (sign ++ whole ++ fraction ++ exponent), after)

def words : List (Text × Json) :=
  [("null", .null), ("true", .bool true), ("false", .bool false), ("NaN", .real "NaN"),
    ("Infinity", .real "Infinity"), ("-Infinity", .real "-Infinity")]

def readWord? (t : Text) : Option (Json × Text) :=
  words.findSome? fun (word, j) => (Text.dropStart? word t).map fun after => (j, after)

mutual

/-- A document at the start of a text.  The first argument bounds the depth of the calls. -/
def readValue : Nat → Text → Except Halt (Json × Text)
  | 0, t => .error (.malformed .noValue t.length)
  | _ + 1, [] => .error (.malformed .noValue 0)
  | fuel + 1, c :: rest =>
    if c = '"' then (readString (c :: rest) 0 [] rest).map fun (t, after) => (.string t, after)
    else if c = '[' then
      match skipSpace rest with
      | d :: after =>
        if d = ']' then .ok (.array [], after) else readItems fuel [] (d :: after)
      | [] => .error (.malformed .noValue 0)
    else if c = '\x7b' then
      match skipSpace rest with
      | d :: after =>
        if d = '\x7d' then .ok (.object [], after) else readMembers fuel [] (d :: after)
      | [] => .error (.malformed .noName 0)
    else
      match readWord? (c :: rest) with
      | some read => .ok read
      | none => readNumber (c :: rest)

/-- The items of an array from one of them on. -/
def readItems : Nat → List Json → Text → Except Halt (Json × Text)
  | 0, _, t => .error (.malformed .noValue t.length)
  | fuel + 1, done, t => do
    let (j, after) ← readValue fuel t
    match skipSpace after with
    | [] => .error (.malformed .noComma 0)
    | c :: rest =>
      if c = ']' then .ok (.array (j :: done).reverse, rest)
      else if c = ',' then readItems fuel (j :: done) (skipSpace rest)
      else .error (.malformed .noComma (rest.length + 1))

/-- The members of an object from one of them on. -/
def readMembers : Nat → List (Text × Json) → Text → Except Halt (Json × Text)
  | 0, _, t => .error (.malformed .noName t.length)
  | _ + 1, _, [] => .error (.malformed .noName 0)
  | fuel + 1, done, q :: inside =>
    if q = '"' then do
      let (key, afterKey) ← readString (q :: inside) 0 [] inside
      match skipSpace afterKey with
      | [] => .error (.malformed .noColon 0)
      | colon :: afterColon =>
        if colon = ':' then do
          let (j, after) ← readValue fuel (skipSpace afterColon)
          match skipSpace after with
          | [] => .error (.malformed .noComma 0)
          | c :: rest =>
            if c = '\x7d' then .ok (.object (entriesOfPairs ((key, j) :: done).reverse), rest)
            else if c = ',' then readMembers fuel ((key, j) :: done) (skipSpace rest)
            else .error (.malformed .noComma (rest.length + 1))
        else .error (.malformed .noColon (afterColon.length + 1))
    else .error (.malformed .noName (inside.length + 1))

end

/-- The document that a text is, up to space around it. -/
def readWhole (t : Text) : Except Halt Json := do
  match t with
  | c :: _ => if c.value = 0xFEFF then .error (.malformed .byteOrderMark t.length)
  | [] => pure ()
  let (j, after) ← readValue (2 * t.length + 2) (skipSpace t)
  match skipSpace after with
  | [] => .ok j
  | rest => .error (.malformed .extraData rest.length)

def read (t : Text) : Except Error Json :=
  match readWhole t with
  | .ok j => .ok j
  | .error (.longInteger digits) => .error (.longInteger digits)
  | .error (.malformed cause left) => .error (.malformed cause (.after t (t.length - left)))

end SchemaDocs.Json
