import TypeSieve.Json.Reader
import TypeSieve.SkipTypes
import TypeSieve.Toml.Document

/-!
# Configuration documents

The one key of interest in a configuration, in JSON or in TOML; other keys belong to other readers
of the file. A JSON configuration may also be an array with the value as its only item. What is
not of interest has to be well-formed, but its numbers and escapes need not have values.
-/

namespace TypeSieve.Config

/-- The key of the unwanted types. -/
def skipTypesKey : String := "skiptypes"

/-- How deep a value inside a configuration may nest. -/
def innerDepth : Nat := Json.depthLimit - 1

/-- The values of the key among the members of an object; every key has to be a text. -/
def settings : List (List Json.Piece × Json.Form) → Option (List Json.Form)
  | [] => some []
  | (pieces, form) :: rest => do
    let key ← Json.decodeText pieces
    let others ← settings rest
    return if key = skipTypesKey then form :: others else others

/-- The value of the only setting; no setting is null, and a second one is refused. -/
def onlyValue : List Json.Form → Option Json
  | [] => some .null
  | [form] => form.value innerDepth
  | _ => none

/-- The setting of a JSON configuration. -/
def jsonSetting? (text : String) : Option Json := do
  match ← Json.Form.ofChars? text.toList with
  | .object members => onlyValue (← settings members)
  | .array items => onlyValue items
  | _ => none

/-- The setting of a TOML configuration. -/
def tomlSetting? (text : String) : Option Json := do
  match ← Toml.parse? text with
  | .table entries => return ((findEntry skipTypesKey entries).map Toml.Value.toJson).getD .null
  | _ => none

end TypeSieve.Config
