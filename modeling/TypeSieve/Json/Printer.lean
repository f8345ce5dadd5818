import TypeSieve.Json.Basic
import TypeSieve.Double.Shortest

/-!
# Writing JSON

The compact text has no space anywhere; the pretty text has one item or member on a line, indented
by two spaces for each level, and empty arrays and objects on one line. Both spell a value in the
same way: controls, quotes and backslashes in literals are escaped and all other characters are
written raw, and a binary64 number has the fewest digits that read back.
-/

namespace TypeSieve.Json

/-- The form of one character inside a literal. -/
def escapeChar (c : Char) : List Char :=
  if c = '"' then ['\\', '"']
  else if c = '\\' then ['\\', '\\']
  else if c = '\x08' then ['\\', 'b']
  else if c = '\x0c' then ['\\', 'f']
  else if c = '\n' then ['\\', 'n']
  else if c = '\r' then ['\\', 'r']
  else if c = '\t' then ['\\', 't']
  else if c < ' ' then
    ['\\', 'u', '0', '0', Nat.digitChar (c.toNat / 16), Nat.digitChar (c.toNat % 16)]
  else [c]

/-- The literal of a text. -/
def literalChars (text : String) : List Char := '"' :: text.toList.flatMap escapeChar ++ ['"']

/-- The layout of a binary64 number: it is written positionally if its point stands more than
`above` and at most `upTo` places behind its first significant digit. -/
structure NumberLayout where
  above : Int
  upTo : Int

/-- Magnitudes from `1e-5` to below `1e16` are written positionally, with a digit on both sides of
the point; all others with an exponent that has its sign. -/
def numberLayout : NumberLayout := ⟨-5, 16⟩

/-- The digits of a natural. -/
def natDigits (n : Nat) : List Char := Nat.toDigits 10 n

/-- The digits of an integer with a sign only if it is negative. -/
def integerChars : Int → List Char
  | .ofNat n => natDigits n
  | .negSucc n => '-' :: natDigits (n + 1)

/-- A positive decimal in a layout. -/
def decimalChars (layout : NumberLayout) (d : Decimal) : List Char :=
  let digits := natDigits d.significand
  let count : Int := digits.length
  let point : Int := count + d.exponent
  if layout.above < point ∧ point ≤ layout.upTo then
    if 0 ≤ d.exponent then digits ++ List.replicate d.exponent.toNat '0' ++ ['.', '0']
    else if 0 < point then digits.take point.toNat ++ '.' :: digits.drop point.toNat
    else '0' :: '.' :: List.replicate (-point).toNat '0' ++ digits
  else
    let power := point - 1
    let exponent := (if power < 0 then '-' else '+') :: natDigits power.natAbs
    match digits with
    | [] => []
    | [digit] => digit :: 'e' :: exponent
    | digit :: rest => digit :: '.' :: rest ++ 'e' :: exponent

/-- The text of a binary64 number. -/
def doubleChars (x : Double) : List Char :=
  let magnitude := if x.isZero then ['0', '.', '0'] else decimalChars numberLayout x.shortest
  if x.negative then '-' :: magnitude else magnitude

/-- The text of a value that holds no other value. -/
def scalarChars : Json → List Char
  | .null => ['n', 'u', 'l', 'l']
  | .bool true => ['t', 'r', 'u', 'e']
  | .bool false => ['f', 'a', 'l', 's', 'e']
  | .integer value => integerChars value
  | .double value => doubleChars value
  | .string text => literalChars text
  | .array _ => ['[', ']']
  | .object _ => ['\x7b', '\x7d']

mutual

/-- The compact text of a value. -/
def compactChars : Json → List Char
  | .array items => '[' :: compactItems items ++ [']']
  | .object members => '\x7b' :: compactMembers members ++ ['\x7d']
  | scalar => scalarChars scalar

/-- The compact texts of items, separated by commas. -/
def compactItems : List Json → List Char
  | [] => []
  | item :: rest =>
    compactChars item ++ (match rest with | [] => [] | _ :: _ => ',' :: compactItems rest)

/-- The compact texts of members, separated by commas. -/
def compactMembers : List (String × Json) → List Char
  | [] => []
  | (key, value) :: rest =>
    literalChars key ++ ':' :: compactChars value ++
      (match rest with | [] => [] | _ :: _ => ',' :: compactMembers rest)

end

/-- A line break and the indentation of a level. -/
def breakLine (level : Nat) : List Char := '\n' :: List.replicate (2 * level) ' '

mutual

/-- The pretty text of a value on a level. -/
def prettyChars (level : Nat) : Json → List Char
  | .array (item :: rest) =>
    '[' :: breakLine (level + 1) ++ prettyItems (level + 1) (item :: rest) ++
      breakLine level ++ [']']
  | .object (member :: rest) =>
    '\x7b' :: breakLine (level + 1) ++ prettyMembers (level + 1) (member :: rest) ++
      breakLine level ++ ['\x7d']
  | scalar => scalarChars scalar

/-- The pretty texts of items, one on a line. -/
def prettyItems (level : Nat) : List Json → List Char
  | [] => []
  | item :: rest =>
    prettyChars level item ++
      (match rest with | [] => [] | _ :: _ => ',' :: breakLine level ++ prettyItems level rest)

/-- The pretty texts of members, one on a line. -/
def prettyMembers (level : Nat) : List (String × Json) → List Char
  | [] => []
  | (key, value) :: rest =>
    literalChars key ++ ':' :: ' ' :: prettyChars level value ++
      (match rest with | [] => [] | _ :: _ => ',' :: breakLine level ++ prettyMembers level rest)

end

/-- The compact text of a value. -/
def compact (value : Json) : String := String.ofList (compactChars value)

/-- The pretty text of a value. -/
def pretty (value : Json) : String := String.ofList (prettyChars 0 value)

end TypeSieve.Json
