import TypeSieve.Json.Basic
import TypeSieve.Text.Digit

/-!
# JSON numerals

The spelling of a number and the value it has. An integer spelling in the range of signed or
unsigned 64-bit integers is an integer; every other spelling is a binary64 number. Its
significant digits are gathered into 64 bits, further digits of the whole part count as powers of
ten and further digits of the fraction are dropped. The result is the significand rounded to
binary64, multiplied or divided by a power of ten with one more rounding, so it is not always the
nearest number to the spelled decimal.
-/

namespace TypeSieve.Json

/-- The spelling of a number: digits of the whole part, of the fraction and of the exponent. A list
of fraction digits is empty only if there is no fraction. -/
structure Numeral where
  negative : Bool
  whole : List Char
  fraction : List Char
  exponent : Option (Bool × List Char)
  deriving DecidableEq

namespace Numeral

/-- Read the part of a numeral behind the exponent sign letter. -/
def readExponent (negative : Bool) (whole fraction : List Char) : List Char → Option Numeral
  | '+' :: digits => finish false digits
  | '-' :: digits => finish true digits
  | digits => finish false digits
where
  /-- At least one digit and nothing else. -/
  finish (below : Bool) (digits : List Char) : Option Numeral :=
    if digits ≠ [] ∧ digits.all Text.isDigit then
      some ⟨negative, whole, fraction, some (below, digits)⟩
    else none

/-- Read the part of a numeral behind its digits before the exponent. -/
def readTail (negative : Bool) (whole fraction : List Char) : List Char → Option Numeral
  | [] => some ⟨negative, whole, fraction, none⟩
  | 'e' :: rest | 'E' :: rest => readExponent negative whole fraction rest
  | _ => none

/-- Read a numeral without its sign. A whole part has no leading zero. -/
def readMagnitude (negative : Bool) (cs : List Char) : Option Numeral :=
  let whole := cs.takeWhile Text.isDigit
  if whole = [] ∨ (whole.head? = some '0' ∧ whole.length ≠ 1) then none
  else match cs.dropWhile Text.isDigit with
    | '.' :: rest =>
      let fraction := rest.takeWhile Text.isDigit
      if fraction = [] then none
      else readTail negative whole fraction (rest.dropWhile Text.isDigit)
    | rest => readTail negative whole [] rest

/-- Read a complete numeral. -/
def ofChars? : List Char → Option Numeral
  | '-' :: rest => readMagnitude true rest
  | cs => readMagnitude false cs

/-- The largest unsigned 64-bit integer. -/
def wordMax : Nat := Nat.pow 2 64 - 1

/-- Gather digits of the whole part: the significand as long as it fits a word, and the count of
digits that no longer fit. -/
def gatherWhole : Nat → List Char → Nat × Nat
  | significand, [] => (significand, 0)
  | significand, digit :: rest =>
    let next := 10 * significand + Text.digitValue digit
    if next ≤ wordMax then gatherWhole next rest else (significand, rest.length + 1)

/-- Gather digits of the fraction: the significand as long as it fits a word, and the count of
digits that were gathered. -/
def gatherFraction : Nat → List Char → Nat × Nat
  | significand, [] => (significand, 0)
  | significand, digit :: rest =>
    let next := 10 * significand + Text.digitValue digit
    if next ≤ wordMax then
      let (gathered, count) := gatherFraction next rest
      (gathered, count + 1)
    else (significand, 0)

/-- The largest exponent of ten that is multiplied or divided by at once. -/
def stepExponent : Nat := 308

/-- The binary64 number nearest to a power of ten up to the step exponent. -/
def powerOfTen (exponent : Nat) : Double :=
  (Double.ofNat (Nat.pow 10 exponent)).getD (Double.zero false)

/-- Divide by the largest power of ten a number of times; zero stays zero. -/
def divideSteps : Nat → Double → Option Double
  | 0, x => some x
  | count + 1, x =>
    if x.isZero then some x
    else (x.div (powerOfTen stepExponent)).bind (divideSteps count)

/-- A significand multiplied by a power of ten, in rounded steps. A magnitude past the range of
binary64 has no value. -/
def scale (significand : Nat) (exponent : Int) : Option Double := do
  let x ← Double.ofNat significand
  match exponent with
  | .ofNat k =>
    if k ≤ stepExponent then x.mul (powerOfTen k)
    else if x.isZero then some x
    else none
  | .negSucc k =>
    let size := k + 1
    if size ≤ stepExponent then x.div (powerOfTen size)
    else
      let steps := (size - 1) / stepExponent
      let y ← divideSteps steps x
      y.div (powerOfTen (size - steps * stepExponent))

/-- The largest magnitude of an exponent that is evaluated. -/
def exponentMax : Nat := Nat.pow 2 31 - 1

/-- Keep an exponent within 32 bits. -/
def saturate (exponent : Int) : Int :=
  if (exponentMax : Int) < exponent then exponentMax
  else if exponent < -(exponentMax : Int) - 1 then -(exponentMax : Int) - 1
  else exponent

/-- The binary64 magnitude that a numeral spells. -/
def magnitude (n : Numeral) : Option Double :=
  let (whole, dropped) := gatherWhole 0 n.whole
  let (significand, gathered) := gatherFraction whole n.fraction
  let start : Int := (dropped : Int) - (gathered : Int)
  match n.exponent with
  | none => scale significand start
  | some (below, digits) =>
    let size := Text.digitsValue digits
    if exponentMax < size then
      if significand ≠ 0 ∧ !below then none else some (Double.zero false)
    else scale significand (saturate (if below then start - size else start + size))

/-- The value of a numeral; a number past the range of binary64 has none. -/
def value (n : Numeral) : Option Json :=
  let signed (x : Double) : Json := .double (if n.negative then x.negate else x)
  let spelled := Text.digitsValue n.whole
  if n.fraction = [] ∧ n.exponent = none ∧ !n.negative ∧ spelled ≤ wordMax then
    some (.integer spelled)
  else if n.fraction = [] ∧ n.exponent = none ∧ n.negative ∧
    spelled ≠ 0 ∧ spelled ≤ Nat.pow 2 63 then
    some (.integer (-spelled))
  else n.magnitude.map signed

end Numeral

end TypeSieve.Json
