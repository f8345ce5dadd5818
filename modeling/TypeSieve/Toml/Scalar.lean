import TypeSieve.Toml.Value

/-!
# Bare scalars

A run of characters that is a boolean, an integer, a float or a moment. Digits may be grouped by
single underscores between them. An integer has 64 bits; a decimal one and the whole part of a
float have no leading zeros. A float is the nearest binary64 number, and one that is too large is
refused, unless it is negative, when it counts as negative infinity.
-/

namespace TypeSieve.Toml

/-- The digits of a run without the underscores that group them. -/
def ungroup (p : Char → Bool) : List Char → Option (List Char)
  | [] => none
  | [c] => if p c then some [c] else none
  | c :: '_' :: rest => if p c then (ungroup p rest).map (c :: ·) else none
  | c :: rest => if p c then (ungroup p rest).map (c :: ·) else none

/-- The digits of a decimal run without leading zeros. -/
def wholeDigits (run : List Char) : Option (List Char) := do
  let digits ← ungroup Text.isDigit run
  if digits.head? = some '0' ∧ digits.length ≠ 1 then none else some digits

/-- A run with a sign in front or without one: whether it is negative, and the rest. -/
def splitSign : List Char → Bool × List Char
  | '+' :: rest => (false, rest)
  | '-' :: rest => (true, rest)
  | run => (false, run)

/-- The largest integer. -/
def integerMax : Nat := Nat.pow 2 63 - 1

/-- The natural that a run of digits in a base spells. -/
def naturalInBase (base : Nat) (run : List Char) : Option Nat := do
  let digits ← ungroup (fun c => (Text.hexValue? c).isSome) run
  Text.valueInBase? base digits

/-- The integer that a run is. -/
def integerOf? (run : List Char) : Option Int := do
  let value : Int ← match run with
    | '0' :: 'x' :: digits => (naturalInBase 16 digits).map Int.ofNat
    | '0' :: 'o' :: digits => (naturalInBase 8 digits).map Int.ofNat
    | '0' :: 'b' :: digits => (naturalInBase 2 digits).map Int.ofNat
    | _ =>
      let (negative, digits) := splitSign run
      (wholeDigits digits).map fun digits =>
        let size : Int := Text.digitsValue digits
        if negative then -size else size
  if value ≤ integerMax ∧ -(integerMax : Int) - 1 ≤ value then some value else none

/-- A digit or an underscore. -/
def isGrouped (c : Char) : Bool := Text.isDigit c || c == '_'

/-- The exponent that the run behind its letter spells. -/
def exponentOf? (run : List Char) : Option Int := do
  let (negative, digits) := splitSign run
  let size : Int := Text.digitsValue (← ungroup Text.isDigit digits)
  return if negative then -size else size

/-- The digits of a fraction and the exponent that the run behind the whole part of a float
spells. -/
def tailOf? : List Char → Option (List Char × Int)
  | '.' :: rest => do
    let fraction ← ungroup Text.isDigit (rest.takeWhile isGrouped)
    match rest.dropWhile isGrouped with
    | [] => return (fraction, 0)
    | 'e' :: exponent | 'E' :: exponent => return (fraction, ← exponentOf? exponent)
    | _ => none
  | 'e' :: exponent | 'E' :: exponent => (exponentOf? exponent).map fun e => ([], e)
  | _ => none

/-- The float that a run is. -/
def floatOf? (run : List Char) : Option (Option Double) := do
  let (negative, magnitude) := splitSign run
  if magnitude = ['i', 'n', 'f'] ∨ magnitude = ['n', 'a', 'n'] then return none
  let whole ← wholeDigits (magnitude.takeWhile isGrouped)
  let (fraction, exponent) ← tailOf? (magnitude.dropWhile isGrouped)
  match Double.ofDecimal negative (Text.digitsValue (whole ++ fraction))
    (exponent - fraction.length) with
  | some value => return some value
  | none => if negative then return none else failure

/-- The value that a run is. -/
def scalarOf? (run : List Char) : Option Value :=
  if run = ['t', 'r', 'u', 'e'] then some (.bool true)
  else if run = ['f', 'a', 'l', 's', 'e'] then some (.bool false)
  else ((integerOf? run).map .integer).or
    (((floatOf? run).map .float).or ((Moment.ofChars? run).map .moment))

/-- A character that ends a bare run. -/
def isTerminator (c : Char) : Bool :=
  isSpace c || c == '\n' || c == '\r' || c == '#' || c == ',' || c == ']' || c == '\x7d'

/-- Read the run up to the next terminator. -/
def readRun : Reader (List Char) := Reader.run fun c => !isTerminator c

/-- A space and the first digit of a time come next. -/
def timeFollows : List Char → Bool
  | ' ' :: c :: _ => Text.isDigit c
  | _ => false

/-- Read a bare scalar. Behind a date, a space and a digit begin the time of the same moment. -/
def readScalar : Reader Value := do
  let run ← readRun
  match ← scalarOf? run with
  | .moment (.date d) =>
    if timeFollows (← get) then
      Reader.expect ' '
      let time ← readRun
      return .moment (← Moment.ofChars? (run ++ ' ' :: time))
    else return .moment (.date d)
  | value => return value

end TypeSieve.Toml
