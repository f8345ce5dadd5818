import TypeSieve.Filter.Pass

/-!
# Filter logs

The messages of a filter pass in order: the start, the classes that have patterns but do not
occur, for each visited class the types that a pattern could not be evaluated against and then the
removals, and the totals.
-/

namespace TypeSieve

/-- How much a message matters. -/
inductive LogLevel where
  | trace
  | debug
  | info
  deriving DecidableEq

/-- What a pass tells about itself. -/
inductive LogEvent where
  /-- Nothing is configured. -/
  | idle
  | started
  /-- No class has the name that patterns are configured for. -/
  | unknownClass (name : String)
  /-- A pattern could not be evaluated against a type. -/
  | undecided (pattern candidate : TypeExpr)
  | removing (removal : Removal)
  | finished (report : Report)
  deriving DecidableEq

namespace LogEvent

/-- How much an event matters. -/
def level : LogEvent → LogLevel
  | .undecided _ _ => .trace
  | .finished _ => .info
  | _ => .debug

/-- The wording of an event. -/
def message : LogEvent → String
  | .idle => "typefilter: no skip types configured, leaving model untouched"
  | .started => "typefilter: removing unwanted types from description model"
  | .unknownClass name => "skip types given for unknown class '" ++ name ++ "', ignoring"
  | .undecided pattern candidate =>
    "pattern " ++ pattern.render ++ " cannot be evaluated against " ++ candidate.render ++
      ", treating as no match"
  | .removing r =>
    "typefilter: removing " ++ r.member.render ++ " from " ++ r.module ++ "." ++ r.className ++
      " (pattern " ++ r.finding.pattern.render ++ " matched " ++ r.finding.matched.render ++ ")"
  | .finished report =>
    "typefilter: removed " ++ toString report.attributesRemoved ++ " attribute(s) and " ++
      toString report.methodsRemoved ++ " method(s) across " ++ toString report.classesVisited ++
      " class(es)"

end LogEvent

namespace Filter

/-- The patterns up to and including the first that matches anywhere in a type. -/
def tried (m : Matcher) (patterns : List TypeExpr) (type : TypeExpr) : List TypeExpr :=
  match patterns with
  | [] => []
  | pattern :: rest => if m.anywhere pattern type then [pattern] else pattern :: tried m rest type

/-- The tried patterns that could not be evaluated against a type. -/
def undecided (m : Matcher) (patterns : List TypeExpr) (type : TypeExpr) : List LogEvent :=
  ((tried m patterns type).filter fun pattern => decide (m pattern type = .incompatible)).map
    fun pattern => .undecided pattern type

/-- The types of a method that are looked at: the return type and the parameter types up to the
first unwanted one. -/
def typesTried (m : Matcher) (patterns : List TypeExpr) : List TypeExpr → List TypeExpr
  | [] => []
  | type :: rest =>
    if (m.first? patterns type).isSome then [type] else type :: typesTried m patterns rest

/-- What is told about a class: undecided types, then removals. -/
def classEvents (m : Matcher) (patterns : List TypeExpr) (module : String) (c : ClassDescription) :
    List LogEvent :=
  let methodTypes (entry : MethodEntry) := entry.2.toList ++ entry.1.params.map Param.type
  c.attrs.values.flatMap (undecided m patterns) ++
    c.methods.entries.flatMap (fun entry =>
      (typesTried m patterns (methodTypes entry)).flatMap (undecided m patterns)) ++
    (classRemovals m patterns module c).map .removing

/-- The names with patterns that no class of a model has. -/
def unknownClasses (skips : SkipTypes) (env : Environment) : List String :=
  match skips with
  | .perClass lists =>
    lists.keys.filter fun name => !env.classes.any fun place => place.2.name == name
  | _ => []

/-- The events of a pass over a model. -/
def events (f : Filter) (env : Environment) : List LogEvent :=
  if f.isNoop then [.idle]
  else
    .started :: (unknownClasses f.skips env).map .unknownClass ++
      ((f.visited env).flatMap fun place => classEvents f.matcher place.2.2 place.1 place.2.1) ++
      [.finished (f.report env)]

end Filter

end TypeSieve
