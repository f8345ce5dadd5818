import TypeSieve.TypeExpr.Basic

/-!
# Skip types

Which types are unwanted: nothing is configured, one list of patterns for every class, or a list
for each named class. A configured list has no pattern with an empty tuple, since every tuple
begins with one. An empty list or mapping configures nothing, while a class may have an empty list.
-/

namespace TypeSieve

/-- A configuration of unwanted types. -/
inductive SkipTypes where
  | unset
  | global (patterns : List TypeExpr)
  | perClass (lists : Dict (List TypeExpr))
  deriving DecidableEq

/-- Why a value is no configuration of unwanted types. -/
inductive SkipTypesError where
  /-- The value is neither a list, a mapping nor null. -/
  | shape (found : Json)
  /-- The entry of a class is not a list. -/
  | entryShape (className : String) (found : Json)
  /-- A pattern contains an empty tuple; it stands at an index of the list, or of the list of a
  class. -/
  | emptyTuple (className : Option String) (index : Nat) (pattern : Json)
  deriving DecidableEq

namespace SkipTypesError

/-- The kind of a value, as errors name it. -/
def describe : Json → String
  | .null => "null"
  | .bool _ => "a boolean"
  | .integer _ | .double _ => "a number"
  | .string _ => "a string"
  | .array _ => "a list"
  | .object _ => "a mapping"

/-- The wording of an error. -/
def message : SkipTypesError → String
  | .shape found =>
    "skiptypes must be a list of types or a mapping of class names to lists, found " ++
      describe found
  | .entryShape className found =>
    "skiptypes entry for class '" ++ className ++
      "' must be a list of types, found " ++ describe found
  | .emptyTuple className index pattern =>
    let place := match className with
      | some name => " for class '" ++ name ++ "'"
      | none => ""
    "skiptypes pattern " ++ pattern.compact ++ " at entry " ++ toString index ++ place ++
      " contains an empty type sequence"

end SkipTypesError

namespace SkipTypes

/-- Read patterns from an index on, refusing the first with an empty tuple. -/
def patternsFrom (className : Option String) (index : Nat) :
    List Json → Except SkipTypesError (List TypeExpr)
  | [] => .ok []
  | item :: rest =>
    if (TypeExpr.ofJson item).hasEmptyTuple then .error (.emptyTuple className index item)
    else (patternsFrom className (index + 1) rest).map (TypeExpr.ofJson item :: ·)

/-- Read the lists of the classes in order. -/
def listsOf : List (String × Json) → Except SkipTypesError (List (String × List TypeExpr))
  | [] => .ok []
  | (name, .array items) :: rest => do
    let patterns ← patternsFrom (some name) 0 items
    return (name, patterns) :: (← listsOf rest)
  | (name, value) :: _ => .error (.entryShape name value)

/-- An empty list or mapping configures nothing. -/
def normalize : SkipTypes → SkipTypes
  | .global [] => .unset
  | .perClass lists => if lists.isEmpty then .unset else .perClass lists
  | skips => skips

/-- Read a configuration. -/
def ofJson : Json → Except SkipTypesError SkipTypes
  | .null => .ok .unset
  | .array items => (patternsFrom none 0 items).map fun patterns => normalize (.global patterns)
  | .object members => (listsOf members).map fun lists => normalize (.perClass (.ofList lists))
  | value => .error (.shape value)

/-- Write a configuration. -/
def toJson : SkipTypes → Json
  | .unset => .null
  | .global patterns => .array (patterns.map TypeExpr.toJson)
  | .perClass lists => .ofDict (lists.map fun _ patterns => .array (patterns.map TypeExpr.toJson))

/-- Nothing is configured. -/
def isUnset : SkipTypes → Bool
  | .unset => true
  | _ => false

/-- The number of patterns in all lists. -/
def patternCount : SkipTypes → Nat
  | .unset => 0
  | .global patterns => patterns.length
  | .perClass lists => lists.values.foldr (fun patterns count => patterns.length + count) 0

/-- The patterns that apply to a class, if any list does. -/
def patternsFor (skips : SkipTypes) (className : String) : Option (List TypeExpr) :=
  match skips with
  | .unset => none
  | .global patterns => some patterns
  | .perClass lists => lists.get? className

end SkipTypes

end TypeSieve
