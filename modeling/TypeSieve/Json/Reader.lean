import TypeSieve.Json.Form

/-!
# Reading JSON

The value of a syntax tree: numerals have values, code units form characters, and objects have
their members in key order with the last value of a repeated key. A tree that nests deeper than
the given bound has no value; a text is read with a bound of 127.
-/

namespace TypeSieve.Json

/-- The characters of a literal. A pair of surrogate units is one character; a lone surrogate is
none. -/
def decodePieces : List Piece → Option (List Char)
  | [] => some []
  | .char c :: rest => (decodePieces rest).map (c :: ·)
  | .unit high :: .unit low :: rest =>
    if 0xD800 ≤ high ∧ high < 0xDC00 then
      if 0xDC00 ≤ low ∧ low < 0xE000 then
        (decodePieces rest).map
          (Char.ofNat (0x10000 + (high - 0xD800) * 0x400 + (low - 0xDC00)) :: ·)
      else none
    else if 0xDC00 ≤ high ∧ high < 0xE000 then none
    else (decodePieces (.unit low :: rest)).map (Char.ofNat high :: ·)
  | .unit code :: rest =>
    if 0xD800 ≤ code ∧ code < 0xE000 then none
    else (decodePieces rest).map (Char.ofNat code :: ·)

/-- The text of a literal. -/
def decodeText (pieces : List Piece) : Option String :=
  (decodePieces pieces).map String.ofList

mutual

/-- The value of a tree whose arrays and objects nest at most `depth` deep. -/
def Form.value (depth : Nat) : Form → Option Json
  | .null => some .null
  | .bool value => some (.bool value)
  | .numeral n => n.value
  | .text pieces => (decodeText pieces).map .string
  | .array items =>
    match depth with
    | 0 => none
    | inner + 1 => (Form.values inner items).map .array
  | .object members =>
    match depth with
    | 0 => none
    | inner + 1 =>
      (Form.memberValues inner members).map fun entries => .object (canonicalEntries entries)

/-- The values of the items of an array. -/
def Form.values (depth : Nat) : List Form → Option (List Json)
  | [] => some []
  | item :: rest => do
    let value ← Form.value depth item
    return value :: (← Form.values depth rest)

/-- The members of an object in text order. -/
def Form.memberValues (depth : Nat) : List (List Piece × Form) → Option (List (String × Json))
  | [] => some []
  | (key, form) :: rest => do
    let name ← decodeText key
    let value ← Form.value depth form
    return (name, value) :: (← Form.memberValues depth rest)

end

/-- Read the members of an object in text order, repeated keys included, each with `read`. A tree
that is no object is given by its value. -/
def Form.members? {α : Type} (read : Nat → Form → Option α) (depth : Nat) :
    Form → Option (Except Json (List (String × α)))
  | .object members =>
    match depth with
    | 0 => none
    | inner + 1 => do
      let entries ← members.mapM fun (key, form) => do
        let name ← decodeText key
        let value ← read inner form
        return (name, value)
      return .ok entries
  | form => (form.value depth).map .error

/-- How deep the arrays and objects of a text may nest. -/
def depthLimit : Nat := 127

/-- Read a complete text. -/
def ofChars? (cs : List Char) : Option Json := (Form.ofChars? cs).bind (Form.value depthLimit)

/-- Read a complete text. -/
def parse? (text : String) : Option Json := ofChars? text.toList

end TypeSieve.Json
