import TypeSieve.Filter.Pass

/-!
# Which members a list of patterns spares

A list of patterns spares a type if none of them matches anywhere in it. It spares a method if it
spares the return type, where there is one, and every parameter type. A search for the reason of a
removal comes back empty exactly for what is spared, whatever order it follows.
-/

namespace TypeSieve

namespace SkipTypes

/-- A list of patterns applies to the classes of a name: the list for all classes, or the list that
is configured under this name. -/
inductive Applies : SkipTypes → String → List TypeExpr → Prop
  | global (patterns : List TypeExpr) (className : String) :
    Applies (.global patterns) className patterns
  | perClass {lists : Dict (List TypeExpr)} {className : String} {patterns : List TypeExpr}
    (hlist : lists.get? className = some patterns) : Applies (.perClass lists) className patterns

/-- The list that is looked up for a class is the one that applies to it. -/
theorem patternsFor_eq_some_iff (skips : SkipTypes) (className : String)
    (patterns : List TypeExpr) :
    skips.patternsFor className = some patterns ↔ skips.Applies className patterns := by
  constructor
  · intro h
    cases skips with
    | unset => simp [patternsFor] at h
    | global configured =>
      obtain rfl : configured = patterns := by simpa [patternsFor] using h
      exact .global configured className
    | perClass lists => exact .perClass h
  · intro h
    rcases h with _ | hlist
    · rfl
    · exact hlist

/-- Nothing is looked up for a class exactly when no list applies to it. -/
theorem patternsFor_eq_none_iff (skips : SkipTypes) (className : String) :
    skips.patternsFor className = none ↔ ∀ patterns, ¬ skips.Applies className patterns := by
  simp only [← patternsFor_eq_some_iff, Option.eq_none_iff_forall_not_mem, Option.mem_def]

/-- Some list, possibly an empty one, applies to the classes of a name. -/
def Covers (skips : SkipTypes) (className : String) : Prop :=
  ∃ patterns, skips.Applies className patterns

/-- A class is covered exactly when a list is found for it. -/
theorem isSome_patternsFor (skips : SkipTypes) (className : String) :
    (skips.patternsFor className).isSome = true ↔ skips.Covers className := by
  simp only [Option.isSome_iff_exists, patternsFor_eq_some_iff, Covers]

instance (skips : SkipTypes) (className : String) : Decidable (skips.Covers className) :=
  decidable_of_iff _ (skips.isSome_patternsFor className)

end SkipTypes

namespace Matcher

/-- None of the patterns matches anywhere in a type. -/
def Spares (m : Matcher) (patterns : List TypeExpr) (type : TypeExpr) : Prop :=
  ∀ pattern ∈ patterns, m.anywhere pattern type = false

/-- None of the patterns matches anywhere in the return type, where there is one, or in a parameter
type. -/
def SparesMethod (m : Matcher) (patterns : List TypeExpr) (entry : MethodEntry) : Prop :=
  (∀ type ∈ entry.2, m.Spares patterns type) ∧ ∀ p ∈ entry.1.params, m.Spares patterns p.type

instance (m : Matcher) (patterns : List TypeExpr) (type : TypeExpr) :
    Decidable (m.Spares patterns type) :=
  inferInstanceAs (Decidable (∀ pattern ∈ patterns, _))

instance (m : Matcher) (patterns : List TypeExpr) (entry : MethodEntry) :
    Decidable (m.SparesMethod patterns entry) :=
  inferInstanceAs (Decidable (_ ∧ _))

/-- No first match is found exactly in a spared type. -/
theorem first?_eq_none_iff (m : Matcher) (patterns : List TypeExpr) (type : TypeExpr) :
    m.first? patterns type = none ↔ m.Spares patterns type := by
  simp [first?, Spares]

end Matcher

namespace Filter

/-- An attribute has no reason for removal exactly when its type is spared. -/
theorem attributeFinding_eq_none_iff (m : Matcher) (patterns : List TypeExpr) (type : TypeExpr) :
    attributeFinding m patterns type = none ↔ m.Spares patterns type := by
  rw [attributeFinding, Option.map_eq_none_iff, m.first?_eq_none_iff]

/-- A return type is no reason for removal exactly when it is absent or spared. -/
theorem returnFinding_eq_none_iff (m : Matcher) (patterns : List TypeExpr)
    (returns : Option TypeExpr) :
    returnFinding m patterns returns = none ↔ ∀ type ∈ returns, m.Spares patterns type := by
  cases returns with
  | none => simp [returnFinding]
  | some type => simp [returnFinding, m.first?_eq_none_iff]

/-- Parameters are no reason for removal exactly when the type of each is spared, wherever their
counting starts. -/
theorem paramFinding_eq_none_iff (m : Matcher) (patterns : List TypeExpr) (index : Nat)
    (params : List Param) :
    paramFinding m patterns index params = none ↔ ∀ p ∈ params, m.Spares patterns p.type := by
  induction params generalizing index with
  | nil => simp [paramFinding]
  | cons p rest ih =>
    rw [List.forall_mem_cons, ← m.first?_eq_none_iff, ← ih (index + 1)]
    cases hfirst : m.first? patterns p.type with
    | none => simp [paramFinding, hfirst]
    | some pattern => simp [paramFinding, hfirst]

/-- A method has no reason for removal exactly when it is spared. -/
theorem methodFinding_eq_none_iff (m : Matcher) (patterns : List TypeExpr) (entry : MethodEntry) :
    methodFinding m patterns entry = none ↔ m.SparesMethod patterns entry := by
  rw [methodFinding, Option.or_eq_none_iff, returnFinding_eq_none_iff, paramFinding_eq_none_iff,
    Matcher.SparesMethod]

end Filter

end TypeSieve
