import TypeSieve.TypeExpr.Printer
import TypeSieve.TypeExpr.Order

/-!
# Method signatures

A method is identified by its name and its parameters in declaration order, so overloads are
different methods. The default value of a parameter is kept as compact JSON text; a text that is no
JSON stands for itself.
-/

namespace TypeSieve

/-- A method parameter. -/
structure Param where
  name : String
  type : TypeExpr
  defaultText : Option String := none
  deriving DecidableEq

namespace Param

/-- The parameter with a default value. -/
def withDefault (p : Param) (value : Json) : Param := { p with defaultText := some value.compact }

/-- The default value, if there is one. -/
def default? (p : Param) : Option Json := p.defaultText.map TypeExpr.literalValue

/-- A default value as it is shown: a string without quotes, any other value as compact text. -/
def renderDefault : Json → String
  | .string text => text
  | value => value.compact

/-- The parameter as it is shown in a signature. -/
def render (p : Param) : String :=
  p.name ++ ": " ++ p.type.render ++
    match p.default? with
    | some value => " = " ++ renderDefault value
    | none => ""

/-- Order of default texts: no default comes first. -/
def orderDefault : Option String → Option String → Ordering
  | none, none => .eq
  | none, some _ => .lt
  | some _, none => .gt
  | some a, some b => compare a b

/-- Order by name, then type, then default text. -/
def order (a b : Param) : Ordering :=
  (compare a.name b.name).then
    ((a.type.order b.type).then (orderDefault a.defaultText b.defaultText))

end Param

/-- The identity of a method. -/
structure Signature where
  name : String
  params : List Param
  deriving DecidableEq

namespace Signature

/-- The signature as it is shown. -/
def render (s : Signature) : String :=
  s.name ++ "(" ++ String.intercalate ", " (s.params.map Param.render) ++ ")"

/-- Order of parameter lists, parameter by parameter. -/
def orderParams : List Param → List Param → Ordering
  | [], [] => .eq
  | [], _ :: _ => .lt
  | _ :: _, [] => .gt
  | a :: as, b :: bs => (a.order b).then (orderParams as bs)

/-- Order by name, then parameters. -/
def order (a b : Signature) : Ordering :=
  (compare a.name b.name).then (orderParams a.params b.params)

end Signature

end TypeSieve
