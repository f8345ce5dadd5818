import TypeSieve.Json.Reader
import TypeSieve.Json.Printer

/-!
# Type expressions

A type is a name such as `float64` or `&`, or a sequence of types such as the const reference
`((int32, const), &)`. Anything else that a description holds in the place of a type, for
instance an array extent or a boolean, is kept as a literal with its compact JSON text, so that
reading a type never fails.
-/

namespace TypeSieve

/-- A type expression. -/
inductive TypeExpr where
  | leaf (name : String)
  | literal (text : String)
  | tuple (items : List TypeExpr)
  deriving Inhabited

namespace TypeExpr

mutual

/-- Equality of types is decidable. -/
def decEq : (a b : TypeExpr) → Decidable (a = b)
  | .leaf a, .leaf b => decidable_of_iff (a = b) (by simp)
  | .literal a, .literal b => decidable_of_iff (a = b) (by simp)
  | .tuple a, .tuple b =>
    match decEqItems a b with
    | .isTrue h => .isTrue (by rw [h])
    | .isFalse h => .isFalse (by simpa using h)
  | .leaf _, .literal _ | .leaf _, .tuple _ | .literal _, .leaf _ | .literal _, .tuple _
  | .tuple _, .leaf _ | .tuple _, .literal _ => .isFalse (by simp)

/-- Equality of lists of types is decidable. -/
def decEqItems : (a b : List TypeExpr) → Decidable (a = b)
  | [], [] => .isTrue rfl
  | [], _ :: _ | _ :: _, [] => .isFalse (by simp)
  | a :: as, b :: bs =>
    match decEq a b, decEqItems as bs with
    | .isTrue h, .isTrue t => .isTrue (by rw [h, t])
    | .isFalse h, _ => .isFalse (by simp [h])
    | _, .isFalse t => .isFalse (by simp [t])

end

instance : DecidableEq TypeExpr := decEq

/-- The expression is a name. -/
def isLeaf : TypeExpr → Bool
  | .leaf _ => true
  | _ => false

mutual

/-- An empty tuple occurs somewhere in the expression. -/
def hasEmptyTuple : TypeExpr → Bool
  | .leaf _ | .literal _ => false
  | .tuple [] => true
  | .tuple (item :: rest) => hasEmptyTupleIn (item :: rest)

/-- An empty tuple occurs in one of the expressions. -/
def hasEmptyTupleIn : List TypeExpr → Bool
  | [] => false
  | item :: rest => hasEmptyTuple item || hasEmptyTupleIn rest

end

mutual

/-- The names and literals of the expression, from left to right. -/
def atoms : TypeExpr → List TypeExpr
  | .tuple items => atomsOf items
  | atom => [atom]

/-- The names and literals of a list of expressions, from left to right. -/
def atomsOf : List TypeExpr → List TypeExpr
  | [] => []
  | item :: rest => atoms item ++ atomsOf rest

end

/-- The atoms of the expression, or the expression itself if it has none. -/
def flatten (e : TypeExpr) : List TypeExpr := if e.atoms = [] then [e] else e.atoms

mutual

/-- Read a type: a string is a name, an array a tuple, and any other value a literal. -/
def ofJson : Json → TypeExpr
  | .string name => .leaf name
  | .array items => .tuple (ofJsonItems items)
  | value => .literal value.compact

/-- Read a list of types. -/
def ofJsonItems : List Json → List TypeExpr
  | [] => []
  | item :: rest => ofJson item :: ofJsonItems rest

end

/-- The value that a literal text spells; a text that is no JSON stands for itself. -/
def literalValue (text : String) : Json := (Json.parse? text).getD (.string text)

mutual

/-- Write a type as a JSON value. -/
def toJson : TypeExpr → Json
  | .leaf name => .string name
  | .literal text => literalValue text
  | .tuple items => .array (toJsonItems items)

/-- Write a list of types as JSON values. -/
def toJsonItems : List TypeExpr → List Json
  | [] => []
  | item :: rest => toJson item :: toJsonItems rest

end

/-- Lists are searched item by item. -/
theorem hasEmptyTupleIn_eq_any (items : List TypeExpr) :
    hasEmptyTupleIn items = items.any hasEmptyTuple := by
  induction items with
  | nil => rfl
  | cons item rest ih => simp [hasEmptyTupleIn, ih]

/-- The atoms of a list are those of its items in order. -/
theorem atomsOf_eq_flatMap (items : List TypeExpr) : atomsOf items = items.flatMap atoms := by
  induction items with
  | nil => rfl
  | cons item rest ih => simp [atomsOf, ih]

/-- A list of types is read item by item. -/
theorem ofJsonItems_eq_map (items : List Json) : ofJsonItems items = items.map ofJson := by
  induction items with
  | nil => rfl
  | cons item rest ih => simp [ofJsonItems, ih]

/-- A list of types is written item by item. -/
theorem toJsonItems_eq_map (items : List TypeExpr) : toJsonItems items = items.map toJson := by
  induction items with
  | nil => rfl
  | cons item rest ih => simp [toJsonItems, ih]

end TypeExpr

end TypeSieve
