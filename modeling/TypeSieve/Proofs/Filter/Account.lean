import TypeSieve.Proofs.Filter.Effect
import TypeSieve.Proofs.Filter.Reason
import Mathlib.Data.List.Forall2

/-!
# The account of a filter pass

A pass decides about each member on its own. The members that it keeps and the removals that it
reports are therefore the two parts of one walk through the model: each member is either still there
afterwards or has exactly one removal that accounts for it, and the removals stand in the order of
the walk.
-/

namespace TypeSieve

namespace Filter

/-- The removal that a pass reports for a member, if it removes it. -/
def removalOf (f : Filter) (p : PlacedMember) : Option Removal :=
  (f.skips.patternsFor p.className).bind fun patterns =>
    (p.member.finding f.matcher patterns).map fun found =>
      ⟨p.module, p.className, p.member.shown, found⟩

/-- A removal accounts for a member: it names its module, its class and the member, with a reason
that the patterns of the class give. -/
structure Accounts (f : Filter) (r : Removal) (p : PlacedMember) : Prop where
  module : r.module = p.module
  className : r.className = p.className
  member : r.member = p.member.shown
  finding : ∃ patterns, f.skips.Applies p.className patterns ∧
    f.matcher.Reason patterns p.member r.finding

/-- The removal that is reported for a member accounts for it. -/
theorem accounts_of_removalOf {f : Filter} {p : PlacedMember} {r : Removal}
    (h : f.removalOf p = some r) : f.Accounts r p := by
  obtain ⟨patterns, hpatterns, hfound⟩ := Option.bind_eq_some_iff.mp h
  obtain ⟨found, hfinding, rfl⟩ := Option.map_eq_some_iff.mp hfound
  exact ⟨rfl, rfl, rfl, patterns, (f.skips.patternsFor_eq_some_iff ..).mp hpatterns,
    reason_of_finding hfinding⟩

/-- The removals of a class, none if no list applies to it. -/
def removalsOf (f : Filter) (module : String) (c : ClassDescription) : List Removal :=
  match f.skips.patternsFor c.name with
  | some patterns => classRemovals f.matcher patterns module c
  | none => []

/-- The findings of a class are those of its members. -/
theorem classFindings_eq_filterMap (m : Matcher) (patterns : List TypeExpr) (c : ClassDescription) :
    classFindings m patterns c =
      c.members.filterMap fun member => (member.finding m patterns).map fun found =>
        (member.shown, found) := by
  rw [classFindings, ClassDescription.members, List.filterMap_append, List.filterMap_map,
    List.filterMap_map]
  rfl

/-- The removals at a place are those of its members. -/
theorem removalsOf_eq_filterMap (f : Filter) (module entity : String) (c : ClassDescription) :
    f.removalsOf module c =
      (Environment.membersAt module entity (.ofClass c)).filterMap f.removalOf := by
  rw [Environment.membersAt_ofClass, List.filterMap_map, removalsOf]
  cases hpatterns : f.skips.patternsFor c.name with
  | none => simp [Function.comp_def, removalOf, hpatterns]
  | some patterns =>
    simp [Function.comp_def, removalOf, hpatterns, classRemovals, classFindings_eq_filterMap,
      List.map_filterMap]

/-- The removals of a report are those of the members in the order of the visit. -/
theorem removals_eq_filterMap (f : Filter) (env : Environment) :
    (f.report env).removals = env.members.filterMap f.removalOf := by
  have hvisited : (f.report env).removals =
      env.classes.flatMap fun place => f.removalsOf place.1 place.2 := by
    rw [report, visited]
    induction env.classes with
    | nil => rfl
    | cons place rest ih =>
      rw [List.flatMap_cons, ← ih]
      cases hpatterns : f.skips.patternsFor place.2.name with
      | none => simp [hpatterns, removalsOf]
      | some patterns => simp [hpatterns, removalsOf]
  rw [hvisited, Environment.classes, Environment.members,
    List.flatMap_assoc, List.filterMap_flatMap]
  refine List.flatMap_congr fun entry _ => ?_
  rw [Environment.membersIn, List.filterMap_flatMap, Environment.classesIn, Dict.values,
    List.filterMap_map, List.flatMap_map]
  induction entry.2.entries with
  | nil => rfl
  | cons place rest ih =>
    rw [List.flatMap_cons, ← ih]
    obtain ⟨entity, d⟩ := place
    cases d with
    | ofClass c =>
      rw [← f.removalsOf_eq_filterMap entry.1 entity c]
      rfl
    | other value => rfl

/-- A report has no removals exactly if no member of the model has one. -/
theorem removals_eq_nil_iff (f : Filter) (env : Environment) :
    (f.report env).removals = [] ↔ ∀ p ∈ env.members, f.removalOf p = none := by
  rw [removals_eq_filterMap, List.filterMap_eq_nil_iff]

/-- Filtering a class keeps the members without a reason for removal. -/
theorem members_filterClass (m : Matcher) (patterns : List TypeExpr) (c : ClassDescription) :
    (filterClass m patterns c).members =
      c.members.filter fun member => (member.finding m patterns).isNone := by
  rw [ClassDescription.members, ClassDescription.members, List.filter_append, List.filter_map,
    List.filter_map]
  rfl

/-- The members at a place after a pass are those without a removal. -/
theorem membersAt_mapClass (f : Filter) (module entity : String) (d : Descriptor) :
    Environment.membersAt module entity (d.mapClass f.treat) =
      (Environment.membersAt module entity d).filter fun p => (f.removalOf p).isNone := by
  cases d with
  | other value => rfl
  | ofClass c =>
    rw [Descriptor.mapClass, Environment.membersAt_ofClass, Environment.membersAt_ofClass,
      (f.classEffect_treat c).name, List.filter_map]
    congr 1
    cases hpatterns : f.skips.patternsFor c.name with
    | none => simp [treat, hpatterns, Function.comp_def, removalOf]
    | some patterns =>
      simp [treat, hpatterns, Function.comp_def, removalOf, members_filterClass]

/-- The members of a model after a pass are those without a removal. -/
theorem members_apply (f : Filter) (env : Environment) :
    (f.apply env).members = env.members.filter fun p => (f.removalOf p).isNone := by
  rw [apply_eq_mapClasses, Environment.members_mapClasses, Environment.members, List.filter_flatMap]
  refine List.flatMap_congr fun entry _ => ?_
  rw [Environment.membersIn, List.filter_flatMap]
  exact List.flatMap_congr fun place _ => f.membersAt_mapClass entry.1 place.1 place.2

/-- The members of a model that a pass takes away. -/
def gone (f : Filter) (env : Environment) : List PlacedMember :=
  env.members.filter fun p => decide (p ∉ (f.apply env).members)

/-- The members that are taken away are those with a removal. -/
theorem gone_eq_filter (f : Filter) (env : Environment) :
    f.gone env = env.members.filter fun p => (f.removalOf p).isSome := by
  refine List.filter_congr fun p hp => ?_
  rw [members_apply, Bool.eq_iff_iff, decide_eq_true_iff, List.mem_filter]
  cases f.removalOf p <;> simp [hp]

/-- What a partial function gives on a list stands in the order of the elements that it is defined
on. -/
theorem forall₂_filterMap {α β : Type} (g : α → Option β) (l : List α) :
    List.Forall₂ (fun b a => g a = some b) (l.filterMap g) (l.filter fun a => (g a).isSome) := by
  induction l with
  | nil => exact .nil
  | cons a rest ih =>
    cases hvalue : g a with
    | none => simpa [hvalue] using ih
    | some b => simpa [hvalue] using ih

/-- Every removal is one of an attribute or one of a method. -/
theorem attributesRemoved_add_methodsRemoved (r : Report) :
    r.attributesRemoved + r.methodsRemoved = r.size := by
  have h := List.length_eq_countP_add_countP
    (fun removal : Removal => removal.member.isAttribute) (l := r.removals)
  simpa [Report.attributesRemoved, Report.methodsRemoved, Report.size] using h.symm

/-- A pass visits the classes that a list applies to. -/
theorem classesVisited_eq_countP (f : Filter) (env : Environment) :
    (f.report env).classesVisited =
      env.classes.countP fun place => decide (f.skips.Covers place.2.name) := by
  change (env.classes.filterMap _).length = _
  rw [List.length_filterMap_eq_countP]
  refine List.countP_congr fun place _ => ?_
  rw [Option.isSome_map, decide_eq_true_iff, SkipTypes.isSome_patternsFor]

/-- The removals of a report account one by one, in the order of the visit, for the members that are
in the model before the pass and not after it; the report counts the classes that a list applies to,
and its size is the number of members by which the model shrinks. -/
theorem report_accounts_for_gone (f : Filter) (env : Environment) :
    (f.gone env).Nodup ∧
      List.Forall₂ f.Accounts (f.report env).removals (f.gone env) ∧
      (f.report env).classesVisited =
        env.classes.countP (fun place => decide (f.skips.Covers place.2.name)) ∧
      (f.report env).attributesRemoved + (f.report env).methodsRemoved = (f.report env).size ∧
      (f.report env).size + (f.apply env).members.length = env.members.length := by
  have haccounts : List.Forall₂ f.Accounts (f.report env).removals (f.gone env) := by
    rw [removals_eq_filterMap, gone_eq_filter]
    exact (forall₂_filterMap f.removalOf env.members).imp fun _ _ => accounts_of_removalOf
  refine ⟨env.nodup_members.filter _, haccounts, f.classesVisited_eq_countP env,
    attributesRemoved_add_methodsRemoved _, ?_⟩
  have hsplit := List.length_eq_length_filter_add (l := env.members) fun p => (f.removalOf p).isSome
  have hsize : (f.report env).size = (f.gone env).length := haccounts.length_eq
  rw [hsize, gone_eq_filter, members_apply, hsplit]
  congr 2
  refine List.filter_congr fun p _ => ?_
  cases f.removalOf p <;> rfl

end Filter

end TypeSieve
