import TypeSieve.Double.Basic

/-!
# Shortest decimal of a binary64 number

The real numbers that round to a given magnitude form an interval between the midpoints to its
two neighbours, ends included when the significand is even. The decimal with the fewest digits
in that interval is a multiple of the largest power of ten that has a multiple there; of the
two candidates around the magnitude the nearer is taken, and of two equally near the even one.
-/

namespace TypeSieve

/-- A positive decimal: an integer significand times a power of ten. -/
structure Decimal where
  significand : Nat
  exponent : Int
  deriving DecidableEq

namespace Double

/-- The interval of real numbers that round to a magnitude, in quarters of its unit. -/
structure RoundingInterval where
  low : Nat
  middle : Nat
  high : Nat
  closed : Bool

/-- The rounding interval of the magnitude at a rank above zero. Below the first magnitude of a
binade the gap is half as wide. -/
def roundingInterval (rank : Nat) : RoundingInterval :=
  let m := significandAt rank
  { low := if m = binade ∧ 2 * binade ≤ rank then 4 * m - 1 else 4 * m - 2
    middle := 4 * m
    high := 4 * m + 2
    closed := m % 2 == 0 }

/-- Multiply a quotient by a power of ten. -/
def scaleByTen (num den : Nat) : Int → Nat × Nat
  | .ofNat k => (num * Nat.pow 10 k, den)
  | .negSucc k => (num, den * Nat.pow 10 (k + 1))

/-- The multiple of `10 ^ exponent` in the rounding interval that is nearest to the magnitude. -/
def decimalAt (rank : Nat) (exponent : Int) : Option Decimal :=
  let interval := roundingInterval rank
  let (units, ten) := scaleByTwo 1 1 (exponentAt rank - 2)
  let (num, den) := scaleByTen units ten (-exponent)
  let lower := interval.middle * num / den
  let inside (d : Nat) : Bool :=
    if interval.closed then
      decide (interval.low * num ≤ d * den) && decide (d * den ≤ interval.high * num)
    else decide (interval.low * num < d * den) && decide (d * den < interval.high * num)
  let nearest := roundQuotient (interval.middle * num) den
  if inside nearest then some ⟨nearest, exponent⟩
  else if inside lower then some ⟨lower, exponent⟩
  else if inside (lower + 1) then some ⟨lower + 1, exponent⟩
  else none

/-- A power of ten above the magnitude at a rank, as an exponent. -/
def decimalExponentBound (rank : Nat) : Int := (exponentAt rank + 53) * 30103 / 100000 + 1

/-- Drop the trailing zeros of a significand into the exponent. -/
def stripZeros : Nat → Decimal → Decimal
  | 0, d => d
  | fuel + 1, d =>
    if d.significand % 10 = 0 ∧ d.significand ≠ 0 then
      stripZeros fuel ⟨d.significand / 10, d.exponent + 1⟩
    else d

/-- The decimal with the fewest digits that rounds to the magnitude of a number other than zero. -/
def shortest (x : Double) : Decimal :=
  let bound := decimalExponentBound x.rank
  let exponents := (List.range 40).map fun (step : Nat) => bound - (step : Int)
  stripZeros 20 ((exponents.findSome? (decimalAt x.rank)).getD ⟨significandAt x.rank, 0⟩)

end Double

end TypeSieve
