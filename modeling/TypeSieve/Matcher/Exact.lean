import TypeSieve.Matcher.Basic

/-!
# The exact matcher

A pattern is compared with a candidate part by part. The wildcard `?` matches anything, another
atom only itself, and a tuple a tuple that is at least as long, item by item; further items of the
candidate do not matter. A tuple cannot be evaluated against a literal.
-/

namespace TypeSieve.Matcher

/-- The name that matches any candidate. -/
def wildcard : String := "?"

mutual

/-- Compare a pattern with a candidate part by part. -/
def exact (pattern candidate : TypeExpr) : Outcome :=
  if pattern = .leaf wildcard ∨ pattern = candidate then .matched
  else match pattern, candidate with
    | .tuple parts, .tuple items => exactItems parts items
    | .tuple _, .literal _ => .incompatible
    | _, _ => .unmatched

/-- Compare the items of a pattern with the first items of a candidate. -/
def exactItems : List TypeExpr → List TypeExpr → Outcome
  | [], _ => .matched
  | _ :: _, [] => .unmatched
  | part :: parts, item :: items => (exact part item).both (exactItems parts items)

end

end TypeSieve.Matcher
