import SchemaDocs.Number.Shortest
import SchemaDocs.Text.Numeral
/-!
# Literals of floating-point numbers

A floating-point number is written with the fewest digits that identify it: positionally, with at
least one digit after the point, if its first digit stands for `10 ^ (-4)` up to `10 ^ 15`, and
otherwise with a signed exponent of at least two digits.  Reading rounds to the nearest number.
-/

namespace SchemaDocs.Binary64

/-- How the numbers without digits are spelled. -/
structure Spelling where
  nan : String
  infinity : String

def displaySpelling : Spelling := ⟨"nan", "inf"⟩

def jsonSpelling : Spelling := ⟨"NaN", "Infinity"⟩

open Text (ofNat)

/-- The digits of a decimal without the zeros at their end, and the power of ten of the first
one. -/
def significantDigits (d : Decimal) : Text × Int :=
  let digits := ofNat d.digits
  let significant := (digits.reverse.dropWhile fun c => c == ('0' : CodePoint)).reverse
  (significant, (digits.length : Int) - 1 + d.exponent)

/-- Digits with a point after the first of them, if there are more. -/
def scientificDigits : Text → Text
  | [] => "0"
  | [d] => [d]
  | d :: rest => d :: ('.' : CodePoint) :: rest

def exponentText (e : Int) : Text :=
  let digits := ofNat e.natAbs
  (if e < 0 then "-" else "+" : Text) ++ (if digits.length < 2 then "0" ++ digits else digits)

/-- Digits of which the first one stands for `10 ^ place`, without an exponent. -/
def positionalText (digits : Text) (place : Int) : Text :=
  if place < 0 then "0." ++ Text.fill (-place - 1).toNat '0' ++ digits
  else
    let whole := place.toNat + 1
    let padded := digits ++ Text.fill (whole - digits.length) '0'
    let fraction := digits.drop whole
    padded.take whole ++ "." ++ (if fraction.isEmpty then "0" else fraction : Text)

/-- The text of `significand * 2 ^ exponent`. -/
def magnitudeText (significand : Nat) (exponent : Int) : Text :=
  if significand = 0 then "0.0"
  else
    let (digits, place) := significantDigits (shortestDecimal significand exponent)
    if -4 ≤ place && place < 16 then positionalText digits place
    else scientificDigits digits ++ "e" ++ exponentText place

def text (spelling : Spelling) : Binary64 → Text
  | .nan => spelling.nan
  | .infinite negative => (if negative then "-" else "" : Text) ++ spelling.infinity
  | .finite negative significand exponent =>
    (if negative then "-" else "" : Text) ++ magnitudeText significand exponent

/-- The number that an exponent spells, with or without a sign. -/
def exponentValue : Text → Int
  | [] => 0
  | c :: rest =>
    if c = '-' then -(Text.digitsValue rest : Int)
    else if c = '+' then Text.digitsValue rest
    else Text.digitsValue (c :: rest)

/-- The decimal that digits with an optional point and an optional exponent spell. -/
def literalDecimal (t : Text) : Decimal :=
  let mantissa := t.takeWhile fun c => !c.isOneOf "eE"
  let whole := mantissa.takeWhile fun c => c != ('.' : CodePoint)
  let fraction := mantissa.drop (whole.length + 1)
  let exponent := exponentValue (t.drop (mantissa.length + 1))
  ⟨Text.digitsValue (whole ++ fraction), exponent - fraction.length⟩

/-- The number that a literal spells, rounded to the nearest. -/
def ofLiteral (spelling : Spelling) (t : Text) : Binary64 :=
  let (negative, magnitude) :=
    match t with
    | c :: rest => if c = '-' then (true, rest) else (false, t)
    | [] => (false, t)
  if magnitude = (spelling.nan : Text) then .nan
  else if magnitude = (spelling.infinity : Text) then .infinite negative
  else ofDecimal negative (literalDecimal magnitude)

end SchemaDocs.Binary64
