import SchemaDocs.Number.Binary64
/-!
# Shortest decimals

Among the decimal numbers that round to a given binary64 number, the one with the fewest digits,
and of several the nearest.  All reals involved are whole multiples of one power of ten: half the
distance to a neighbour is a multiple of a power of two, and `2 ^ (-n) = 5 ^ n * 10 ^ (-n)`.
-/

namespace SchemaDocs

/-- The reals that round to a number, in units of `10 ^ exponent`: those between `lower` and
`upper`, with both ends if `closed`. -/
structure RoundingSpan where
  lower : Nat
  value : Nat
  upper : Nat
  closed : Bool
  exponent : Int

namespace RoundingSpan

/-- The reals that round to `significand * 2 ^ exponent`.  The lower neighbour of a power of two is
nearer than the upper one, unless the exponent is the least. -/
def ofFinite (significand : Nat) (exponent : Int) : RoundingSpan :=
  let quarter := exponent - 2
  let unit := Nat.pow 2 quarter.toNat * Nat.pow 5 (-quarter).toNat
  let narrow := significand = Nat.pow 2 52 && exponent != Binary64.minExponent
  { lower := (if narrow then 4 * significand - 1 else 4 * significand - 2) * unit
    value := 4 * significand * unit
    upper := (4 * significand + 2) * unit
    closed := significand % 2 == 0
    exponent := min quarter 0 }

def contains (s : RoundingSpan) (x : Nat) : Bool :=
  if s.closed then s.lower ≤ x && x ≤ s.upper else s.lower < x && x < s.upper

/-- The multiple of `unit` in the span that is nearest to the value, as its factor.  It is one of
the two neighbours of the value; if both are equally near it is the even one. -/
def nearestMultiple? (s : RoundingSpan) (unit : Nat) : Option Nat :=
  let below := s.value / unit
  let above := below + 1
  match s.contains (below * unit), s.contains (above * unit) with
  | false, false => none
  | true, false => some below
  | false, true => some above
  | true, true =>
    let down := s.value - below * unit
    let up := above * unit - s.value
    if down < up then some below
    else if up < down then some above
    else some (below + below % 2)

/-- The decimal in the span with the fewest digits that leaves out at most `places` last places of
the value. -/
def shortestWithin (s : RoundingSpan) : Nat → Decimal
  | 0 => ⟨s.value, s.exponent⟩
  | places + 1 =>
    match s.nearestMultiple? (Nat.pow 10 (places + 1)) with
    | some factor => ⟨factor, s.exponent + (places + 1)⟩
    | none => s.shortestWithin places

end RoundingSpan

/-- The shortest decimal that rounds to `significand * 2 ^ exponent`. -/
def shortestDecimal (significand : Nat) (exponent : Int) : Decimal :=
  let span := RoundingSpan.ofFinite significand exponent
  span.shortestWithin (digitCount span.value - 1)

end SchemaDocs
