import TypeSieve.Model.Environment
import TypeSieve.Text.Quoted

/-!
# Reading description models

A model is an object of modules, each an object of descriptors. A descriptor that has both `attrs`
and `methods` is a class and has to be well formed; every other descriptor is kept as it is. A
method entry, and likewise a parameter, is an object or an array of its fields in order. The fields
of an object are examined in key order, a missing field after all present ones.
-/

namespace TypeSieve

/-- What a place in a model has to hold. -/
inductive Expected where
  | map
  | sequence
  | string
  | method
  | param
  deriving DecidableEq

/-- Why a value is no description model. -/
inductive ModelError where
  /-- A value of another kind stands in the place of the expected one. -/
  | unexpected (found : Json) (expected : Expected)
  | missing (field : String)
  /-- An array has too few fields for a method entry or a parameter. -/
  | tooShort (count : Nat) (expected : Expected)
  /-- An array has more fields than a method entry or a parameter. -/
  | tooLong (count : Nat)
  /-- Two methods of a class have this signature. -/
  | duplicate (signature : Signature)
  deriving DecidableEq

namespace Expected

/-- The name of what is expected. -/
def describe : Expected → String
  | .map => "a map"
  | .sequence => "a sequence"
  | .string => "a string"
  | .method => "struct MethodEntry"
  | .param => "struct Param"

end Expected

namespace ModelError

/-- What a value is, as errors name it. -/
def describe : Json → String
  | .null => "null"
  | .bool value => "boolean `" ++ (if value then "true" else "false") ++ "`"
  | .integer value => "integer `" ++ (Json.integer value).compact ++ "`"
  | .double value => "floating point `" ++ (Json.double value).compact ++ "`"
  | .string text => "string " ++ Text.quote text
  | .array _ => "sequence"
  | .object _ => "map"

/-- The wording of an error. -/
def message : ModelError → String
  | .unexpected found expected =>
    "invalid type: " ++ describe found ++ ", expected " ++ expected.describe
  | .missing field => "missing field `" ++ field ++ "`"
  | .tooShort count expected =>
    "invalid length " ++ toString count ++ ", expected " ++ expected.describe ++ " with 3 elements"
  | .tooLong count => "invalid length " ++ toString count ++ ", expected fewer elements in array"
  | .duplicate signature => "duplicate method signature " ++ signature.render

end ModelError

namespace Json

/-- Read a string. -/
def asString : Json → Except ModelError String
  | .string text => .ok text
  | value => .error (.unexpected value .string)

/-- Read the items of an array. -/
def asArray : Json → Except ModelError (List Json)
  | .array items => .ok items
  | value => .error (.unexpected value .sequence)

/-- Read the members of an object. -/
def asObject : Json → Except ModelError (List (String × Json))
  | .object members => .ok members
  | value => .error (.unexpected value .map)

/-- Read a field if it is present. -/
def asField {α : Type} (read : Json → Except ModelError α) :
    Option Json → Except ModelError (Option α)
  | none => .ok none
  | some value => (read value).map some

end Json

/-- A field that has to be present. -/
def required {α : Type} (field : String) : Option α → Except ModelError α
  | none => .error (.missing field)
  | some value => .ok value

namespace Param

/-- The parameter with the given fields. -/
def ofFields (name : String) (type : Json) (default : Option Json) : Param :=
  ⟨name, .ofJson type, default.map Json.compact⟩

/-- Read a parameter. -/
def ofJson : Json → Except ModelError Param
  | .object members => do
    let name ← Json.asField Json.asString (findEntry "name" members)
    return ofFields (← required "name" name) (← required "type" (findEntry "type" members))
      (findEntry "default" members)
  | .array [] => .error (.tooShort 0 .param)
  | .array [name] => do
    let _ ← name.asString
    .error (.tooShort 1 .param)
  | .array [name, type] => return ofFields (← name.asString) type none
  | .array [name, type, default] => return ofFields (← name.asString) type (some default)
  | .array (name :: _ :: _ :: more) => do
    let _ ← name.asString
    .error (.tooLong (more.length + 3))
  | value => .error (.unexpected value .param)

/-- Read a list of parameters. -/
def listOfJson (value : Json) : Except ModelError (List Param) := do
  (← value.asArray).mapM ofJson

end Param

namespace Methods

/-- Read a return type; null means that there is none. -/
def returnsOfJson : Json → Option TypeExpr
  | .null => none
  | value => some (.ofJson value)

/-- Read a method entry. -/
def entryOfJson : Json → Except ModelError MethodEntry
  | .object members => do
    let name ← Json.asField Json.asString (findEntry "name" members)
    let params ← Json.asField Param.listOfJson (findEntry "params" members)
    let returns := (findEntry "returns" members).bind returnsOfJson
    return (⟨← required "name" name, params.getD []⟩, returns)
  | .array [] => .error (.tooShort 0 .method)
  | .array [name] => return (⟨← name.asString, []⟩, none)
  | .array [name, params] => return (⟨← name.asString, ← Param.listOfJson params⟩, none)
  | .array [name, params, returns] =>
    return (⟨← name.asString, ← Param.listOfJson params⟩, returnsOfJson returns)
  | .array (name :: params :: _ :: more) => do
    let _ ← name.asString
    let _ ← Param.listOfJson params
    .error (.tooLong (more.length + 3))
  | value => .error (.unexpected value .method)

/-- Read a method list. Every entry is read before signatures are compared. -/
def ofJson (value : Json) : Except ModelError Methods := do
  let entries ← (← value.asArray).mapM entryOfJson
  (ofEntries entries).mapError .duplicate

end Methods

namespace ClassDescription

/-- The fields of a class that have a meaning here. -/
def ownFields : List String := ["name", "attrs", "methods"]

/-- Read the attributes of a class. -/
def attrsOfJson (value : Json) : Except ModelError (Dict TypeExpr) := do
  return .ofList ((← value.asObject).map fun member => (member.1, .ofJson member.2))

/-- Read a class from its attributes, its methods and all its members. -/
def ofMembers (attrs methods : Json) (members : List (String × Json)) :
    Except ModelError ClassDescription := do
  let attrs ← attrsOfJson attrs
  let methods ← Methods.ofJson methods
  let name ← Json.asField Json.asString (findEntry "name" members)
  return ⟨← required "name" name, attrs, methods,
    .ofList (members.filter fun member => !ownFields.contains member.1)⟩

end ClassDescription

namespace Descriptor

/-- Read a descriptor. -/
def ofJson (value : Json) : Except ModelError Descriptor :=
  match value with
  | .object members =>
    match findEntry "attrs" members, findEntry "methods" members with
    | some attrs, some methods => (ClassDescription.ofMembers attrs methods members).map .ofClass
    | _, _ => .ok (.other value)
  | _ => .ok (.other value)

end Descriptor

/-- The members of an object in the order in which they are read, or a value that is no object. -/
abbrev Outline (α : Type) := Except Json (List (String × α))

namespace Environment

/-- Read a model from the members of its modules. A repeated name is read each time and keeps what
was read last. -/
def ofOutline (outline : Outline (Outline Json)) : Except ModelError Environment := do
  let modules ← outline.mapError (ModelError.unexpected · .map)
  let read ← modules.mapM fun (module, outline) => do
    let descriptors ← outline.mapError (ModelError.unexpected · .map)
    let read ← descriptors.mapM fun (entity, value) => do
      return (entity, ← Descriptor.ofJson value)
    return (module, Dict.ofList read)
  return ⟨.ofList read⟩

/-- The members of a value. -/
def outlineOf : Json → Outline Json
  | .object members => .ok members
  | value => .error value

/-- Read a model from a value. -/
def ofJson (value : Json) : Except ModelError Environment :=
  ofOutline ((outlineOf value).map fun modules =>
    modules.map fun (module, descriptors) => (module, outlineOf descriptors))

end Environment

/-- Why a text is no description model. -/
inductive ModelTextError where
  /-- The text is not JSON. -/
  | notJson
  | invalid (error : ModelError)
  deriving DecidableEq

namespace Environment

/-- The members of the modules of a text in text order, if the text is JSON. -/
def outlineOfText (text : String) : Option (Outline (Outline Json)) :=
  (Json.Form.ofChars? text.toList).bind
    (Json.Form.members? (fun depth => Json.Form.members? Json.Form.value depth) Json.depthLimit)

/-- Read a model from a text. -/
def parse (text : String) : Except ModelTextError Environment :=
  match outlineOfText text with
  | none => .error .notJson
  | some outline => (ofOutline outline).mapError .invalid

end Environment

end TypeSieve
