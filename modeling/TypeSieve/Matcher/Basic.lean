import TypeSieve.TypeExpr.Basic

/-!
# Matchers

A matcher tells how a pattern stands to a candidate type: it matches, it does not, or the
candidate has a shape that the matcher cannot evaluate. Searching a pattern anywhere in a type
tries the whole type and every atom in it; an evaluation that is impossible counts as no match.
-/

namespace TypeSieve

/-- How a pattern stands to a candidate. -/
inductive Outcome where
  | matched
  | unmatched
  | incompatible
  deriving DecidableEq

namespace Outcome

/-- The pattern matches. -/
def isMatch : Outcome → Bool
  | .matched => true
  | _ => false

/-- The outcome of two parts that both have to match: one that does not match decides, then one that
cannot be evaluated. -/
def both : Outcome → Outcome → Outcome
  | .unmatched, _ => .unmatched
  | _, .unmatched => .unmatched
  | .incompatible, _ => .incompatible
  | _, .incompatible => .incompatible
  | .matched, .matched => .matched

end Outcome

/-- A rule that compares a pattern with a candidate, in this order. -/
abbrev Matcher := TypeExpr → TypeExpr → Outcome

namespace Matcher

/-- Search a pattern anywhere in a candidate. The whole candidate is tried first. If it does not
match, a name is tried once more, a tuple is searched for a match in what it flattens to, and a
literal is given up. -/
def anywhere (m : Matcher) (pattern candidate : TypeExpr) : Bool :=
  match m pattern candidate with
  | .matched => true
  | .unmatched | .incompatible =>
    match candidate with
    | .leaf _ => (m pattern candidate).isMatch
    | .tuple _ => candidate.flatten.any fun part => (m pattern part).isMatch
    | .literal _ => false

/-- The first of the patterns that matches anywhere in the candidate. -/
def first? (m : Matcher) (patterns : List TypeExpr) (candidate : TypeExpr) : Option TypeExpr :=
  patterns.find? fun pattern => m.anywhere pattern candidate

end Matcher

end TypeSieve
