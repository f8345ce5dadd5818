/-!
# Finite binary64 numbers

A finite binary64 number is a sign and a rank: the position of its magnitude among all finite
magnitudes in ascending order. Every rank below `Double.rankLimit` is a number, so no value of
the type is outside the format. Arithmetic rounds an exact quotient of naturals to the nearest
magnitude, a tie to the even one; a result past the largest magnitude is `none`.
-/

namespace TypeSieve

/-- The number of magnitudes from one power of two up to the next. -/
def Double.binade : Nat := Nat.pow 2 52

/-- The number of finite magnitudes: 2047 binades. -/
def Double.rankLimit : Nat := 2047 * Double.binade

/-- A finite binary64 number; zero has both signs. -/
structure Double where
  negative : Bool
  rank : Fin Double.rankLimit
  deriving DecidableEq

namespace Double

/-- The integer significand of the magnitude at a rank. -/
def significandAt (rank : Nat) : Nat :=
  if rank < binade then rank else binade + rank % binade

/-- The power of two that the significand at a rank is multiplied by. -/
def exponentAt (rank : Nat) : Int :=
  if rank < binade then -1074 else (rank / binade : Nat) - 1075

/-- Zero with the given sign. -/
def zero (negative : Bool) : Double := ⟨negative, ⟨0, by decide⟩⟩

/-- The number is one of the two zeros. -/
def isZero (x : Double) : Bool := x.rank.val == 0

/-- The number with the opposite sign. -/
def negate (x : Double) : Double := { x with negative := !x.negative }

/-- Two numbers denote the same real number; the two zeros do. -/
def sameValue (x y : Double) : Bool := x == y || (x.isZero && y.isZero)

/-- `num / den` scaled by a power of two, as a quotient of naturals. -/
def scaleByTwo (num den : Nat) : Int → Nat × Nat
  | .ofNat k => (num * Nat.pow 2 k, den)
  | .negSucc k => (num, den * Nat.pow 2 (k + 1))

/-- The integer nearest to `num / den`, a tie going to the even neighbour. -/
def roundQuotient (num den : Nat) : Nat :=
  let quotient := num / den
  let rest := num % den
  if 2 * rest < den then quotient
  else if den < 2 * rest then quotient + 1
  else quotient + quotient % 2

/-- The exponent of the magnitudes nearest to a positive quotient: the one that leaves a significand
of 53 bits, and at least the exponent of the smallest magnitude. -/
def quotientExponent (num den : Nat) : Int :=
  let guess : Int := (num.log2 : Int) - (den.log2 : Int) - 53
  let (n, d) := scaleByTwo num den (-guess)
  let exponent := if n < d * (2 * binade) then guess else guess + 1
  if exponent < -1074 then -1074 else exponent

/-- The number nearest to `num / den`, for a positive `den`. -/
def ofQuotient (negative : Bool) (num den : Nat) : Option Double :=
  if num = 0 then some (zero negative)
  else
    let exponent := quotientExponent num den
    let (n, d) := scaleByTwo num den (-exponent)
    let rank := (exponent + 1074).toNat * binade + roundQuotient n d
    if h : rank < rankLimit then some ⟨negative, ⟨rank, h⟩⟩ else none

/-- The magnitude as a quotient of naturals. -/
def magnitude (x : Double) : Nat × Nat :=
  scaleByTwo (significandAt x.rank) 1 (exponentAt x.rank)

/-- The rounded product. -/
def mul (x y : Double) : Option Double :=
  ofQuotient (x.negative != y.negative) (x.magnitude.1 * y.magnitude.1)
    (x.magnitude.2 * y.magnitude.2)

/-- The rounded quotient by a number other than zero. -/
def div (x y : Double) : Option Double :=
  ofQuotient (x.negative != y.negative) (x.magnitude.1 * y.magnitude.2)
    (x.magnitude.2 * y.magnitude.1)

/-- The number nearest to a natural. -/
def ofNat (n : Nat) : Option Double := ofQuotient false n 1

/-- The number nearest to `digits * 10 ^ exponent`. Exponents far outside the range of the format
are settled by the count of digits alone. -/
def ofDecimal (negative : Bool) (digits : Nat) (exponent : Int) : Option Double :=
  if digits = 0 then some (zero negative)
  else if 310 ≤ exponent then none
  else if exponent + (digits.log2 : Int) < -1100 then some (zero negative)
  else match exponent with
    | .ofNat k => ofQuotient negative (digits * Nat.pow 10 k) 1
    | .negSucc k => ofQuotient negative digits (Nat.pow 10 (k + 1))

end Double

end TypeSieve
