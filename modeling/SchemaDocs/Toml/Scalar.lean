import SchemaDocs.Toml.Basic
import SchemaDocs.Text.Numeral
/-!
# Scalars of TOML

Strings, numbers, dates and times.  Each function takes the text that is left and returns what it
read and the text after it.  Texts are not told apart by what is wrong with them; only a whole
number of more than 4300 digits is a fault of its own.
-/

namespace SchemaDocs.Toml

inductive Error where
  | malformed
  | longInteger (digits : Nat)
  deriving DecidableEq

def maxDigits : Nat := 4300

def isSpace (c : CodePoint) : Bool :=
  c.value == 0x20 || c.value == 0x09

def isSpaceOrNewline (c : CodePoint) : Bool :=
  isSpace c || c.value == 0x0A

def skipSpace (t : Text) : Text :=
  t.dropWhile isSpace

/-- Control characters, apart from the tab. -/
def isIllegal (c : CodePoint) : Bool :=
  (c.value < 0x20 && c.value != 0x09) || c.value == 0x7F

/-- Control characters, apart from the tab and the line feed. -/
def isIllegalInLines (c : CodePoint) : Bool :=
  isIllegal c && c.value != 0x0A

/-! ## Strings -/

/-- The scalar value that a fixed number of hexadecimal digits spell. -/
def readScalar (width : Nat) (t : Text) : Except Error (Text × Nat) :=
  let digits := t.take width
  match Text.hexValue? digits with
  | none => .error .malformed
  | some n =>
    let c := CodePoint.ofNat? n
    if digits.length < width || c.any CodePoint.isSurrogate then .error .malformed
    else
      match c with
      | some c => .ok ([c], width + 1)
      | none => .error .malformed

/-- What the escapes of one letter stand for. -/
def letterEscape? (c : CodePoint) : Option CodePoint :=
  if c = '"' || c = '\\' then some c
  else if c = 'b' then some '\x08'
  else if c = 't' then some '\t'
  else if c = 'n' then some '\n'
  else if c = 'f' then some '\x0c'
  else if c = 'r' then some '\r'
  else none

/-- What follows the blank rest of a line and the blank lines after it, from a text that begins
inside the line; all of it may be blank. -/
def skipLineEnd (t : Text) : Except Error Text :=
  match skipSpace t with
  | [] => .ok []
  | c :: rest => if c = '\n' then .ok (rest.dropWhile isSpaceOrNewline) else .error .malformed

/-- The text of an escape, from the text after its backslash, and how many code points were read
there.  In a string of several lines a backslash at the end of a line joins it with the next line
that is not blank. -/
def readEscape (lines : Bool) : Text → Except Error (Text × Nat)
  | [] => .error .malformed
  | c :: rest =>
    if lines && isSpaceOrNewline c then
      (skipLineEnd (c :: rest)).map fun after => ([], rest.length + 1 - after.length)
    else if c = 'u' then readScalar 4 rest
    else if c = 'U' then readScalar 8 rest
    else
      match letterEscape? c with
      | some x => .ok ([x], 1)
      | none => .error .malformed

/-- The rest of a string between double quotes, or between three of them if it may have several
lines.  The first `skip` code points belong to an escape that has been read, and `done` holds what
has been read, the last code point first. -/
def readBasic (lines : Bool) (skip : Nat) (done : Text) : Text → Except Error (Text × Text)
  | [] => .error .malformed
  | c :: rest =>
    match skip with
    | skip + 1 => readBasic lines skip done rest
    | 0 =>
      if c = '"' then
        if !lines then .ok (done.reverse, rest)
        else
          match Text.dropStart? "\"\"" rest with
          | some after => .ok (done.reverse, after)
          | none => readBasic lines 0 (c :: done) rest
      else if c = '\\' then
        match readEscape lines rest with
        | .error fault => .error fault
        | .ok (x, length) => readBasic lines length (x.reverse ++ done) rest
      else if (if lines then isIllegalInLines c else isIllegal c) then .error .malformed
      else readBasic lines 0 (c :: done) rest

/-- The rest of a string between single quotes. -/
def readLiteral (t : Text) : Except Error (Text × Text) :=
  match Text.splitFirst? '\'' t with
  | none => .error .malformed
  | some (inside, after) => if inside.any isIllegal then .error .malformed else .ok (inside, after)

/-- The rest of a string between three single quotes. -/
def readLiteralLines (done : Text) : Text → Except Error (Text × Text)
  | [] => .error .malformed
  | c :: rest =>
    match Text.dropStart? "'''" (c :: rest) with
    | some after => .ok (done.reverse, after)
    | none =>
      if isIllegalInLines c then .error .malformed else readLiteralLines (c :: done) rest

/-- A string of several lines may end in up to two quotes of its own before the closing ones. -/
def takeQuotes (quote : CodePoint) (read : Text × Text) : Text × Text :=
  match read.2 with
  | a :: b :: after =>
    if a = quote then
      if b = quote then (read.1 ++ [quote, quote], after) else (read.1 ++ [quote], b :: after)
    else read
  | [a] => if a = quote then (read.1 ++ [quote], []) else read
  | [] => read

/-- A line feed right after the opening quotes does not count. -/
def skipNewline : Text → Text
  | [] => []
  | c :: rest => if c = '\n' then rest else c :: rest

/-- A string of any kind at the start of a text; nothing if the text begins with no quote. -/
def readString? (t : Text) : Option (Except Error (Text × Text)) :=
  match Text.dropStart? "\"\"\"" t, Text.dropStart? "'''" t with
  | some rest, _ => some ((readBasic true 0 [] (skipNewline rest)).map (takeQuotes '"'))
  | _, some rest => some ((readLiteralLines [] (skipNewline rest)).map (takeQuotes '\''))
  | none, none =>
    match t with
    | c :: rest =>
      if c = '"' then some (readBasic false 0 [] rest)
      else if c = '\'' then some (readLiteral rest)
      else none
    | [] => none

/-! ## Numbers -/

/-- Digits at the start of a text, without the single underscores between them. -/
def spanGrouped (isDigit : CodePoint → Bool) : Text → Text × Text
  | [] => ([], [])
  | c :: rest =>
    if isDigit c then
      let (digits, after) := spanGrouped isDigit rest
      (c :: digits, after)
    else if c = '_' then
      match rest with
      | d :: more =>
        if isDigit d then
          let (digits, after) := spanGrouped isDigit more
          (d :: digits, after)
        else ([], c :: rest)
      | [] => ([], c :: rest)
    else ([], c :: rest)

/-- At least one digit, and more of them with or without single underscores. -/
def grouped? (isDigit : CodePoint → Bool) : Text → Option (Text × Text)
  | [] => none
  | c :: rest => if isDigit c then some (spanGrouped isDigit (c :: rest)) else none

def valueInBase (base : Nat) (digits : Text) : Nat :=
  digits.foldl (fun n c => base * n + (Text.hexDigitValue? c).getD 0) 0

/-- The beginnings of whole numbers in other bases than ten. -/
def otherBases : List (Text × Nat × (CodePoint → Bool)) :=
  [("0x", 16, fun c => (Text.hexDigitValue? c).isSome),
    ("0b", 2, fun c => c.isOneOf "01"),
    ("0o", 8, fun c => c.isOneOf "01234567")]

/-- A whole number in another base than ten. -/
def readOtherBase? (t : Text) : Option (Toml × Text) :=
  otherBases.findSome? fun (mark, base, isDigit) => do
    let rest ← Text.dropStart? mark t
    let (digits, after) ← grouped? isDigit rest
    return (.integer (valueInBase base digits), after)

/-- The sign of a number, if it has one. -/
def splitSign : Text → Text × Text
  | [] => ([], [])
  | c :: rest => if c = '+' || c = '-' then ([c], rest) else ([], c :: rest)

/-- A zero, or digits that do not begin with one. -/
def wholePart? : Text → Option (Text × Text)
  | [] => none
  | c :: rest => if c = '0' then some ([c], rest) else grouped? CodePoint.isDigit (c :: rest)

/-- A point and digits; nothing if the text does not begin so. -/
def fractionPart : Text → Text × Text
  | [] => ([], [])
  | c :: rest =>
    match grouped? CodePoint.isDigit rest with
    | some (digits, after) => if c = '.' then (c :: digits, after) else ([], c :: rest)
    | none => ([], c :: rest)

/-- An `e` of either case and digits with or without a sign; nothing if the text does not begin
so. -/
def exponentPart : Text → Text × Text
  | [] => ([], [])
  | e :: rest =>
    let (sign, unsigned) := splitSign rest
    match grouped? CodePoint.isDigit unsigned with
    | some (digits, after) =>
      if e = 'e' || e = 'E' then (e :: (sign ++ digits), after) else ([], e :: rest)
    | none => ([], e :: rest)

/-- A decimal number at the start of a text. -/
def readDecimal? (t : Text) : Option (Except Error (Toml × Text)) := do
  let (sign, unsigned) := splitSign t
  let (whole, afterWhole) ← wholePart? unsigned
  let (fraction, afterFraction) := fractionPart afterWhole
  let (exponent, after) := exponentPart afterFraction
  if fraction.isEmpty && exponent.isEmpty then
    if maxDigits < whole.length then return .error (.longInteger whole.length)
    else
      let n : Int := Text.digitsValue whole
      return .ok (.integer (if sign = ("-" : Text) then -n else n), after)
  else return .ok (.real (sign ++ whole ++ fraction ++ exponent), after)

def numberWords : List Text :=
  ["inf", "nan", "+inf", "-inf", "+nan", "-nan"]

/-- A truth value or a number that is a word. -/
def readWord? (t : Text) : Option (Toml × Text) :=
  match Text.dropStart? "true" t, Text.dropStart? "false" t with
  | some after, _ => some (.boolean true, after)
  | _, some after => some (.boolean false, after)
  | none, none =>
    numberWords.findSome? fun word =>
      (Text.dropStart? word t).map fun after => (.real word, after)

/-! ## Dates and times -/

/-- A number of a fixed count of digits at the start of a text. -/
def fixedDigits? (width : Nat) (t : Text) : Option (Nat × Text) :=
  let digits := t.take width
  if digits.length = width && digits.all CodePoint.isDigit then
    some (Text.digitsValue digits, t.drop width)
  else none

/-- A number of a fixed count of digits between bounds. -/
def boundedDigits? (width least greatest : Nat) (t : Text) : Option (Nat × Text) := do
  let (n, after) ← fixedDigits? width t
  if least ≤ n && n ≤ greatest then return (n, after) else none

/-- A calendar date.  The day may still be one that its month does not have. -/
structure Date where
  year : Nat
  month : Nat
  day : Nat

/-- Every fourth year is a leap year, of full centuries every fourth. -/
def isLeapYear (year : Nat) : Bool :=
  year % 4 == 0 && (year % 100 != 0 || year % 400 == 0)

def daysIn (year month : Nat) : Nat :=
  if month = 2 then (if isLeapYear year then 29 else 28)
  else if month = 4 || month = 6 || month = 9 || month = 11 then 30
  else 31

/-- Years count from one, and a month has no more days than it has. -/
def Date.isValid (d : Date) : Bool :=
  1 ≤ d.year && d.day ≤ daysIn d.year d.month

def date? (t : Text) : Option (Date × Text) := do
  let (year, t) ← fixedDigits? 4 t
  let t ← Text.dropStart? "-" t
  let (month, t) ← boundedDigits? 2 1 12 t
  let t ← Text.dropStart? "-" t
  let (day, t) ← boundedDigits? 2 1 31 t
  return (⟨year, month, day⟩, t)

/-- The text after an hour and a minute at the start of a text. -/
def afterMinute? (t : Text) : Option Text := do
  let (_, t) ← boundedDigits? 2 0 23 t
  let t ← Text.dropStart? ":" t
  let (_, t) ← boundedDigits? 2 0 59 t
  return t

/-- The text after a time of day at the start of a text, with a fraction of a second or without. -/
def afterTime? (t : Text) : Option Text := do
  let t ← afterMinute? t
  let t ← Text.dropStart? ":" t
  let (_, t) ← boundedDigits? 2 0 59 t
  match t with
  | c :: d :: rest =>
    if c = '.' && d.isDigit then return rest.dropWhile CodePoint.isDigit else return t
  | _ => return t

/-- The text after an offset from universal time; the same text if it begins with none. -/
def afterOffset (t : Text) : Text :=
  match t with
  | [] => []
  | c :: rest =>
    if c = 'Z' || c = 'z' then rest
    else if c = '+' || c = '-' then (afterMinute? rest).getD t
    else t

/-- The text after a time of day that follows a date; the same text if none does. -/
def afterDayTime (t : Text) : Text :=
  match t with
  | [] => []
  | c :: rest =>
    if c = 'T' || c = 't' || c = ' ' then ((afterTime? rest).map afterOffset).getD t else t

/-- A date with or without a time, or a time of day. -/
def readMoment? (t : Text) : Option (Except Error (Toml × Text)) :=
  let literal := fun (after : Text) => t.take (t.length - after.length)
  match date? t with
  | some (date, afterDate) =>
    let after := afterDayTime afterDate
    some (if date.isValid then .ok (.moment (literal after), after) else .error .malformed)
  | none => (afterTime? t).map fun after => .ok (.moment (literal after), after)

def readScalarValue (t : Text) : Except Error (Toml × Text) :=
  match readString? t with
  | some read => read.map fun (s, after) => (.string s, after)
  | none =>
    match readMoment? t with
    | some read => read
    | none =>
      match readOtherBase? t with
      | some read => .ok read
      | none =>
        match readDecimal? t with
        | some read => read
        | none =>
          match readWord? t with
          | some read => .ok read
          | none => .error .malformed

end SchemaDocs.Toml
