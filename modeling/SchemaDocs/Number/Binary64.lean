/-!
# Binary64 numbers

Floating-point numbers of 64 bits as exact data: a finite number is a significand times a power of
two.  A decimal number is rounded to the nearest of them, and of two nearest ones to that with the
even significand.  The only arithmetic is on whole numbers.
-/

namespace SchemaDocs

/-- A 64-bit floating-point number.  A finite one is `significand * 2 ^ exponent`, negated if
`negative`; the significand is below `2 ^ 53`, and below `2 ^ 52` for the least exponent only. -/
inductive Binary64 where
  | nan
  | infinite (negative : Bool)
  | finite (negative : Bool) (significand : Nat) (exponent : Int)
  deriving DecidableEq

/-- The decimal number `digits * 10 ^ exponent`. -/
structure Decimal where
  digits : Nat
  exponent : Int
  deriving DecidableEq

def digitCount (n : Nat) : Nat :=
  (Nat.toDigits 10 n).length

namespace Binary64

def minExponent : Int := -1074

def maxExponent : Int := 971

def zero (negative : Bool) : Binary64 :=
  .finite negative 0 minExponent

/-- A quotient rounded to a whole number, a half to the even neighbour. -/
def roundQuotient (num den : Nat) : Nat :=
  let quotient := num / den
  let twice := 2 * (num % den)
  if twice < den then quotient
  else if den < twice then quotient + 1
  else quotient + quotient % 2

/-- `num / den` over a power of two, rounded to a whole number. -/
def roundScaled (num den : Nat) (exponent : Int) : Nat :=
  roundQuotient (num * Nat.pow 2 (-exponent).toNat) (den * Nat.pow 2 exponent.toNat)

/-- The exponent for which `num / den` has a significand of 53 bits, or the least one. -/
def exponentOf (num den : Nat) : Int :=
  let difference : Int := (Nat.log2 num : Int) - (Nat.log2 den : Int)
  let reaches := den * Nat.pow 2 difference.toNat ≤ num * Nat.pow 2 (-difference).toNat
  max minExponent (if reaches then difference - 52 else difference - 53)

def ofQuotient (negative : Bool) (num den : Nat) : Binary64 :=
  let exponent := exponentOf num den
  let rounded := roundScaled num den exponent
  let (significand, exponent) :=
    if rounded = Nat.pow 2 53 then (Nat.pow 2 52, exponent + 1) else (rounded, exponent)
  if maxExponent < exponent then .infinite negative else .finite negative significand exponent

/-- The number nearest to a decimal number.  Decimals far outside the range are told by the place of
their first digit, so that no large power of ten is formed for them. -/
def ofDecimal (negative : Bool) (d : Decimal) : Binary64 :=
  let firstPlace := (digitCount d.digits : Int) + d.exponent
  if d.digits = 0 || firstPlace < -330 then zero negative
  else if 310 < firstPlace then .infinite negative
  else ofQuotient negative (d.digits * Nat.pow 10 d.exponent.toNat) (Nat.pow 10 (-d.exponent).toNat)

def isZero : Binary64 → Bool
  | .finite _ significand _ => significand == 0
  | _ => false

/-- Equality as numbers: the two zeros are equal, and there is one NaN, which equals itself. -/
def equals (x y : Binary64) : Bool :=
  x == y || (x.isZero && y.isZero)

def equalsInt : Binary64 → Int → Bool
  | .finite negative significand exponent, n =>
    (n.natAbs * Nat.pow 2 (-exponent).toNat == significand * Nat.pow 2 exponent.toNat) &&
      (n == 0 || decide (n < 0) == negative)
  | _, _ => false

end Binary64

end SchemaDocs
