import SchemaDocs.Text.Basic
/-!
# Numerals

Whole numbers as text: decimal digits of a number, the number of a run of digits, and hexadecimal
digits of a fixed width.
-/

namespace SchemaDocs.Text

/-- The decimal digits of a number, without leading zeros. -/
def ofNat (n : Nat) : Text :=
  (Nat.toDigits 10 n).map CodePoint.ofChar

/-- The decimal digits of an integer, after a minus sign if it is negative. -/
def ofInt : Int → Text
  | .ofNat n => ofNat n
  | .negSucc n => ('-' : CodePoint) :: ofNat (n + 1)

def digitsValue (t : Text) : Nat :=
  t.foldl (fun n c => 10 * n + (c.value - 0x30)) 0

/-- The code point of a hexadecimal digit, in lower case. -/
def hexDigit (n : Nat) : CodePoint :=
  Nat.digitChar (n % 16)

/-- The lowest hexadecimal digits of a number, as many as asked for. -/
def hex : Nat → Nat → Text
  | 0, _ => []
  | width + 1, n => hex width (n / 16) ++ [hexDigit n]

def hexDigitValue? (c : CodePoint) : Option Nat :=
  if 0x30 ≤ c.value ∧ c.value ≤ 0x39 then some (c.value - 0x30)
  else if 0x61 ≤ c.value ∧ c.value ≤ 0x66 then some (c.value - 0x61 + 10)
  else if 0x41 ≤ c.value ∧ c.value ≤ 0x46 then some (c.value - 0x41 + 10)
  else none

def hexValue? (t : Text) : Option Nat :=
  t.foldlM (fun n c => (hexDigitValue? c).map (16 * n + ·)) 0

end SchemaDocs.Text
