import TypeSieve.TypeExpr.Basic

/-!
# Order of type expressions

Names come before literals and literals before tuples. Two names or two literals are ordered by
their code points and two tuples item by item, the shorter first if one begins the other.
-/

namespace TypeSieve.TypeExpr

mutual

/-- Compare two types. -/
def order : TypeExpr → TypeExpr → Ordering
  | .leaf a, .leaf b => compare a b
  | .leaf _, _ => .lt
  | .literal _, .leaf _ => .gt
  | .literal a, .literal b => compare a b
  | .literal _, .tuple _ => .lt
  | .tuple a, .tuple b => orderItems a b
  | .tuple _, _ => .gt

/-- Compare two lists of types item by item. -/
def orderItems : List TypeExpr → List TypeExpr → Ordering
  | [], [] => .eq
  | [], _ :: _ => .lt
  | _ :: _, [] => .gt
  | a :: as, b :: bs => (order a b).then (orderItems as bs)

end

end TypeSieve.TypeExpr
