import TypeSieve.Matcher.Basic

/-!
# Looser matchers

Matchers that look at names only: regardless of case, by length alone, and one that can evaluate
nothing.
-/

namespace TypeSieve.Matcher

/-- Names match if they are equal up to the case of ASCII letters; other patterns cannot be
evaluated. -/
def caseless : Matcher
  | .leaf pattern, .leaf name =>
    if pattern.toList.map Char.toLower = name.toList.map Char.toLower then .matched else .unmatched
  | .leaf _, _ => .unmatched
  | _, _ => .incompatible

/-- Names match if they have the same number of bytes; other candidates cannot be evaluated. -/
def sameLength : Matcher
  | .leaf pattern, .leaf name =>
    if pattern.utf8ByteSize = name.utf8ByteSize then .matched else .unmatched
  | _, .leaf _ => .unmatched
  | _, _ => .incompatible

/-- No candidate can be evaluated. -/
def blind : Matcher := fun _ _ => .incompatible

end TypeSieve.Matcher
