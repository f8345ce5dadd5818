import TypeSieve.Json.Basic
import TypeSieve.Toml.Moment

/-!
# Values

The values of a document and what they are as JSON. An infinity or a value that is not a number
becomes null, and a moment becomes an object with its text under a reserved key.
-/

namespace TypeSieve.Toml

/-- A value; a float without a number is an infinity or not a number. -/
inductive Value where
  | text (s : String)
  | integer (value : Int)
  | float (value : Option Double)
  | bool (value : Bool)
  | moment (m : Moment)
  | array (items : List Value)
  | table (entries : List (String × Value))
  deriving Inhabited

/-- The key that marks the text of a moment. -/
def momentKey : String := "$__toml_private_datetime"

namespace Value

mutual

/-- The JSON form of a value. -/
def toJson : Value → Json
  | .text s => .string s
  | .integer value => .integer value
  | .float none => .null
  | .float (some value) => .double value
  | .bool value => .bool value
  | .moment m => .object [(momentKey, .string m.render)]
  | .array items => .array (toJsonItems items)
  | .table entries => .object (canonicalEntries (toJsonEntries entries))

/-- The JSON forms of the items of an array. -/
def toJsonItems : List Value → List Json
  | [] => []
  | item :: rest => toJson item :: toJsonItems rest

/-- The JSON forms of the entries of a table. -/
def toJsonEntries : List (String × Value) → List (String × Json)
  | [] => []
  | (key, value) :: rest => (key, toJson value) :: toJsonEntries rest

end

end Value

end TypeSieve.Toml
