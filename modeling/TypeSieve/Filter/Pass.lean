import TypeSieve.Filter.Report
import TypeSieve.Matcher.Exact
import TypeSieve.Model.Environment
import TypeSieve.SkipTypes

/-!
# Filter passes

A pass removes from every class the attributes whose type, and the methods whose return type or a
parameter type, matches one of the patterns that apply to the class. The patterns of a class are
found by the name in its description. The report names for each removed member the first place and
the first pattern at that place; the order is that of the visit, attributes before methods.
-/

namespace TypeSieve

/-- Unwanted types together with the rule that recognises them. -/
structure Filter where
  skips : SkipTypes
  matcher : Matcher

namespace Filter

/-- The filter that compares types part by part. -/
def ofSkips (skips : SkipTypes) : Filter := ⟨skips, Matcher.exact⟩

/-- Nothing is configured, so a pass changes nothing. -/
def isNoop (f : Filter) : Bool := f.skips.isUnset

/-- Why an attribute is removed. -/
def attributeFinding (m : Matcher) (patterns : List TypeExpr) (type : TypeExpr) : Option Finding :=
  (m.first? patterns type).map fun pattern => ⟨.attribute, pattern, type⟩

/-- Why a method is removed for one of its parameters, counted from an index. -/
def paramFinding (m : Matcher) (patterns : List TypeExpr) (index : Nat) :
    List Param → Option Finding
  | [] => none
  | p :: rest =>
    match m.first? patterns p.type with
    | some pattern => some ⟨.param index p.name, pattern, p.type⟩
    | none => paramFinding m patterns (index + 1) rest

/-- Why a method is removed for its return type. -/
def returnFinding (m : Matcher) (patterns : List TypeExpr) (returns : Option TypeExpr) :
    Option Finding :=
  returns.bind fun type => (m.first? patterns type).map fun pattern => ⟨.returns, pattern, type⟩

/-- Why a method is removed: for its return type, else for its first unwanted parameter. -/
def methodFinding (m : Matcher) (patterns : List TypeExpr) (entry : MethodEntry) : Option Finding :=
  (returnFinding m patterns entry.2).or (paramFinding m patterns 0 entry.1.params)

/-- The class without its unwanted members. -/
def filterClass (m : Matcher) (patterns : List TypeExpr) (c : ClassDescription) :
    ClassDescription :=
  { c with
    attrs := c.attrs.filter fun _ type => (attributeFinding m patterns type).isNone
    methods := c.methods.filter fun entry => (methodFinding m patterns entry).isNone }

/-- The unwanted members of a class with the reasons for their removal. -/
def classFindings (m : Matcher) (patterns : List TypeExpr) (c : ClassDescription) :
    List (Member × Finding) :=
  c.attrs.entries.filterMap (fun entry =>
    (attributeFinding m patterns entry.2).map fun finding => (.attribute entry.1, finding)) ++
  c.methods.entries.filterMap fun entry =>
    (methodFinding m patterns entry).map fun finding => (.method entry.1.render, finding)

/-- The removals of a class of a module. -/
def classRemovals (m : Matcher) (patterns : List TypeExpr) (module : String)
    (c : ClassDescription) : List Removal :=
  (classFindings m patterns c).map fun found => ⟨module, c.name, found.1, found.2⟩

/-- The classes that patterns apply to, with their modules and patterns. -/
def visited (f : Filter) (env : Environment) : List (String × ClassDescription × List TypeExpr) :=
  env.classes.filterMap fun place =>
    (f.skips.patternsFor place.2.name).map fun patterns => (place.1, place.2, patterns)

/-- The model without its unwanted members. -/
def apply (f : Filter) (env : Environment) : Environment :=
  env.mapClasses fun _ c =>
    match f.skips.patternsFor c.name with
    | some patterns => filterClass f.matcher patterns c
    | none => c

/-- What a pass over a model removes. -/
def report (f : Filter) (env : Environment) : Report :=
  ⟨(f.visited env).length,
    (f.visited env).flatMap fun place => classRemovals f.matcher place.2.2 place.1 place.2.1⟩

end Filter

end TypeSieve
