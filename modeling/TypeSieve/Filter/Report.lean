import TypeSieve.TypeExpr.Printer
import TypeSieve.Text.Quoted

/-!
# Filter reports

What a filter pass removed, in the order of its visit: for each member the class it belonged to,
the place of the unwanted type in it, the pattern that matched and the type that it matched.
-/

namespace TypeSieve

/-- A member of a class, by name or by shown signature. -/
inductive Member where
  | attribute (name : String)
  | method (signature : String)
  deriving DecidableEq

/-- Where in a member a type stands. -/
inductive Site where
  | attribute
  | returns
  | param (index : Nat) (name : String)
  deriving DecidableEq

/-- Why a member is removed: the place, the pattern and the type that it matched. -/
structure Finding where
  site : Site
  pattern : TypeExpr
  matched : TypeExpr
  deriving DecidableEq

/-- The removal of a member. -/
structure Removal where
  module : String
  className : String
  member : Member
  finding : Finding
  deriving DecidableEq

/-- What a pass did. -/
structure Report where
  classesVisited : Nat
  removals : List Removal
  deriving DecidableEq

namespace Member

/-- The member is an attribute. -/
def isAttribute : Member → Bool
  | .attribute _ => true
  | .method _ => false

/-- The member as messages show it. -/
def render : Member → String
  | .attribute name => "Attribute \x7b name: " ++ Text.quote name ++ " \x7d"
  | .method signature => "Method \x7b signature: " ++ Text.quote signature ++ " \x7d"

/-- Write a member. -/
def toJson : Member → Json
  | .attribute name => .object [("kind", .string "attribute"), ("name", .string name)]
  | .method signature => .object [("kind", .string "method"), ("signature", .string signature)]

end Member

namespace Site

/-- Write a place. -/
def toJson : Site → Json
  | .attribute => .object [("kind", .string "attribute")]
  | .returns => .object [("kind", .string "return")]
  | .param index name =>
    .object [("kind", .string "param"), ("index", .integer index), ("name", .string name)]

end Site

namespace Removal

/-- Write a removal. -/
def toJson (r : Removal) : Json :=
  .object [("module", .string r.module), ("class", .string r.className),
    ("member", r.member.toJson), ("site", r.finding.site.toJson),
    ("pattern", r.finding.pattern.toJson), ("matched", r.finding.matched.toJson)]

end Removal

namespace Report

/-- The number of removed members. -/
def size (r : Report) : Nat := r.removals.length

/-- Nothing was removed. -/
def isEmpty (r : Report) : Bool := r.removals.isEmpty

/-- The number of removed attributes. -/
def attributesRemoved (r : Report) : Nat :=
  r.removals.countP fun removal => removal.member.isAttribute

/-- The number of removed methods. -/
def methodsRemoved (r : Report) : Nat :=
  r.removals.countP fun removal => !removal.member.isAttribute

/-- Write a report. -/
def toJson (r : Report) : Json :=
  .object [("classes_visited", .integer r.classesVisited),
    ("removals", .array (r.removals.map Removal.toJson))]

end Report

end TypeSieve
