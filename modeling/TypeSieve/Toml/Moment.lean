import TypeSieve.Toml.Reader

/-!
# Dates and times

A moment is a calendar date, a time of day, or both; with both there may be an offset from universal
time. Fractions of a second keep nine digits. A moment is written with `T` between date and time, a
fraction without trailing zeros, and `Z` for an offset that was written so.
-/

namespace TypeSieve.Toml

/-- A day of the calendar. -/
structure Date where
  year : Nat
  month : Nat
  day : Nat
  deriving DecidableEq

/-- A time of day; the second may be a leap second. -/
structure Clock where
  hour : Nat
  minute : Nat
  second : Nat
  nanosecond : Nat
  deriving DecidableEq

/-- An offset from universal time. -/
inductive Zone where
  | universal
  | minutes (ahead : Int)
  deriving DecidableEq

/-- A date, a time, or both. -/
inductive Moment where
  | date (d : Date)
  | clock (t : Clock)
  | both (d : Date) (t : Clock) (zone : Option Zone)
  deriving DecidableEq

/-- The number of days of a month. -/
def daysOfMonth (year month : Nat) : Nat :=
  if month = 2 then
    if year % 4 = 0 ∧ (year % 100 ≠ 0 ∨ year % 400 = 0) then 29 else 28
  else if month = 4 ∨ month = 6 ∨ month = 9 ∨ month = 11 then 30
  else 31

/-- Read a natural of a fixed number of digits. -/
def readDigits (count : Nat) : Reader Nat := do
  return Text.digitsValue (← Reader.exactly count Text.isDigit)

namespace Date

/-- Read a date. -/
def read : Reader Date := do
  let year ← readDigits 4
  Reader.expect '-'
  let month ← readDigits 2
  Reader.expect '-'
  let day ← readDigits 2
  guard (1 ≤ month ∧ month ≤ 12 ∧ 1 ≤ day ∧ day ≤ daysOfMonth year month)
  return ⟨year, month, day⟩

/-- Write a date. -/
def render (d : Date) : List Char :=
  Text.padded 4 d.year ++ '-' :: Text.padded 2 d.month ++ '-' :: Text.padded 2 d.day

end Date

namespace Clock

/-- The nanoseconds that the digits of a fraction spell; digits behind the ninth do not count. -/
def nanoseconds (fraction : List Char) : Nat :=
  let kept := fraction.take 9
  Text.digitsValue kept * Nat.pow 10 (9 - kept.length)

/-- Read a time of day. -/
def read : Reader Clock := do
  let hour ← readDigits 2
  Reader.expect ':'
  let minute ← readDigits 2
  Reader.expect ':'
  let second ← readDigits 2
  guard (hour ≤ 23 ∧ minute ≤ 59 ∧ second ≤ 60)
  if ← Reader.accept '.' then
    let fraction ← Reader.run Text.isDigit
    guard (fraction ≠ [])
    return ⟨hour, minute, second, nanoseconds fraction⟩
  else return ⟨hour, minute, second, 0⟩

/-- Write a time of day. -/
def render (t : Clock) : List Char :=
  Text.padded 2 t.hour ++ ':' :: Text.padded 2 t.minute ++ ':' :: Text.padded 2 t.second ++
    if t.nanosecond = 0 then []
    else '.' :: ((Text.padded 9 t.nanosecond).reverse.dropWhile (· == '0')).reverse

end Clock

namespace Zone

/-- A character that an offset begins with. -/
def isMark (c : Char) : Bool := c == 'Z' || c == 'z' || c == '+' || c == '-'

/-- Read an offset, if there is one. -/
def read? : Reader (Option Zone) := do
  match ← Reader.oneOf? isMark with
  | none => return none
  | some 'Z' | some 'z' => return some .universal
  | some sign =>
    let hour ← readDigits 2
    Reader.expect ':'
    let minute ← readDigits 2
    guard (hour ≤ 23 ∧ minute ≤ 59)
    let size : Int := 60 * hour + minute
    return some (.minutes (if sign = '-' then -size else size))

/-- Write an offset. -/
def render : Zone → List Char
  | .universal => ['Z']
  | .minutes ahead =>
    (if ahead < 0 then '-' else '+') :: Text.padded 2 (ahead.natAbs / 60) ++
      ':' :: Text.padded 2 (ahead.natAbs % 60)

end Zone

namespace Moment

/-- A character between a date and a time. -/
def isSeparator (c : Char) : Bool := c == 'T' || c == 't' || c == ' '

/-- Read a moment that begins with a date. -/
def readDated : Reader Moment := do
  let d ← Date.read
  match ← Reader.oneOf? isSeparator with
  | none => return .date d
  | some _ => return .both d (← Clock.read) (← Zone.read?)

/-- Read the moment that a run of characters is. -/
def ofChars? (cs : List Char) : Option Moment :=
  (readDated.complete? cs).or ((Clock.read.complete? cs).map .clock)

/-- The text of a moment. -/
def render (m : Moment) : String :=
  String.ofList <| match m with
    | .date d => d.render
    | .clock t => t.render
    | .both d t zone => d.render ++ 'T' :: t.render ++ (zone.map Zone.render).getD []

end Moment

end TypeSieve.Toml
