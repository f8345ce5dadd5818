import TypeSieve.Proofs.Filter.Passes
import TypeSieve.Proofs.Filter.Related
import TypeSieve.Proofs.Matcher.Covering

/-!
# Filters that do nothing

A pass changes a model exactly if it reports a removal. It reports none if no list of the
configuration holds a pattern, be it that nothing is configured or that all lists are empty. A
pattern on the other hand matches itself, so it removes the attribute of this very type from a class
that its list applies to.
-/

namespace TypeSieve

namespace SkipTypes

/-- The patterns that are counted are those in all lists. -/
theorem patternCount_eq_length (skips : SkipTypes) :
    skips.patternCount = skips.patterns.length := by
  cases skips with
  | unset => rfl
  | global patterns => rfl
  | perClass lists =>
    rw [patternCount, patterns, List.length_flatten, List.sum_eq_foldr, List.foldr_map]

/-- The count is zero exactly if no list holds a pattern. -/
theorem patternCount_eq_zero_iff (skips : SkipTypes) :
    skips.patternCount = 0 ↔ skips.patterns = [] := by
  rw [patternCount_eq_length, List.length_eq_zero_iff]

/-- A configuration that is unset holds no pattern. -/
theorem patterns_of_isUnset {skips : SkipTypes} (h : skips.isUnset = true) :
    skips.patterns = [] := by
  cases skips with
  | unset => rfl
  | global patterns => cases h
  | perClass lists => cases h

/-- Every pattern stands in a list that applies to some class. -/
theorem exists_applies_of_mem_patterns {skips : SkipTypes} {pattern : TypeExpr}
    (h : pattern ∈ skips.patterns) :
    ∃ className list, skips.Applies className list ∧ pattern ∈ list := by
  cases skips with
  | unset => cases h
  | global patterns => exact ⟨"", patterns, .global patterns "", h⟩
  | perClass lists =>
    obtain ⟨list, hlist, hpattern⟩ := List.mem_flatten.mp h
    obtain ⟨entry, hentry, rfl⟩ := List.mem_map.mp hlist
    exact ⟨entry.1, entry.2, .perClass ((Dict.get?_eq_some_iff ..).mpr hentry), hpattern⟩

end SkipTypes

namespace Filter

/-- A pass leaves every model as it is and reports no removal. -/
def Inert (f : Filter) : Prop := ∀ env, f.apply env = env ∧ (f.report env).removals = []

/-- A pass keeps a member exactly if it has no removal to report for it. -/
theorem keeps_eq_isNone_removalOf (f : Filter) (p : PlacedMember) :
    f.keeps p.className p.member = (f.removalOf p).isNone := by
  rw [keeps, removalOf]
  cases f.skips.patternsFor p.className with
  | none => rfl
  | some patterns => rw [Option.bind_some, Option.bind_some, Option.isNone_map]

/-- A pass leaves a model as it is exactly if it reports no removal. -/
theorem apply_eq_self_iff (f : Filter) (env : Environment) :
    f.apply env = env ↔ (f.report env).removals = [] := by
  rw [removals_eq_nil_iff]
  constructor
  · intro hsame p hp
    rw [← hsame, members_apply] at hp
    exact Option.isNone_iff_eq_none.mp (List.mem_filter.mp hp).2
  · intro hnone
    have htreat : ∀ module entity c, env.class? module entity = some c → f.treat c = c := by
      intro module entity c hclass
      rw [treat_eq_keep]
      refine ClassDescription.keep_eq_self fun member hmember => ?_
      have hplaced : ⟨module, entity, c.name, member⟩ ∈ env.members :=
        (env.mem_members_iff _).mpr ⟨c, hclass, rfl, hmember⟩
      rw [f.keeps_eq_isNone_removalOf ⟨module, entity, c.name, member⟩, hnone _ hplaced]
      rfl
    rw [apply_eq_mapClasses, Environment.mapClasses_congr htreat, Environment.mapClasses_id]

/-- A pass reports no removal if no list holds a pattern. -/
theorem removals_eq_nil_of_patterns_eq_nil {f : Filter} (h : f.skips.patterns = [])
    (env : Environment) : (f.report env).removals = [] := by
  rw [removals_eq_nil_iff]
  intro p _
  by_contra hremoval
  obtain ⟨r, hr⟩ := Option.ne_none_iff_exists'.mp hremoval
  obtain ⟨patterns, happlies, hreason⟩ := (accounts_of_removalOf hr).finding
  have hpattern := happlies.mem_patterns hreason.matched_mem_types.2.mem_and_anywhere.1
  rw [h] at hpattern
  cases hpattern

/-- A pass does nothing if no list holds a pattern. -/
theorem inert_of_patterns_eq_nil (f : Filter) (h : f.skips.patterns = []) : f.Inert := by
  intro env
  have hremovals := removals_eq_nil_of_patterns_eq_nil h env
  exact ⟨(f.apply_eq_self_iff env).mpr hremovals, hremovals⟩

/-- A model with one class that has one attribute. -/
def attributeModel (className : String) (type : TypeExpr) : Environment :=
  Environment.empty.insertClass "" ((ClassDescription.ofName className).withAttr "" type)

/-- The attribute is the only member of the model. -/
theorem members_attributeModel (className : String) (type : TypeExpr) :
    (attributeModel className type).members = [⟨"", className, className, .attr "" type⟩] := rfl

/-- A pass removes the attribute if its type is a pattern that matches itself and applies to the
class. -/
theorem removals_attributeModel_ne_nil {f : Filter} {className : String} {patterns : List TypeExpr}
    {pattern : TypeExpr} (happlies : f.skips.Applies className patterns)
    (hpattern : pattern ∈ patterns) (hself : f.matcher.anywhere pattern pattern = true) :
    (f.report (attributeModel className pattern)).removals ≠ [] := by
  intro hnone
  rw [removals_eq_nil_iff, members_attributeModel] at hnone
  have hkept := hnone _ (List.mem_singleton_self _)
  rw [removalOf, (f.skips.patternsFor_eq_some_iff ..).mpr happlies, Option.bind_some,
    Option.map_eq_none_iff] at hkept
  have hspared := (attributeFinding_eq_none_iff ..).mp hkept pattern hpattern
  rw [hself] at hspared
  cases hspared

/-- With a pattern that matches itself there is a model that a pass changes, and it reports the
removal. -/
theorem exists_changed_of_mem_patterns (f : Filter) {pattern : TypeExpr}
    (hpattern : pattern ∈ f.skips.patterns) (hself : f.matcher.anywhere pattern pattern = true) :
    ∃ env, f.apply env ≠ env ∧ (f.report env).removals ≠ [] := by
  obtain ⟨className, list, happlies, hmem⟩ := SkipTypes.exists_applies_of_mem_patterns hpattern
  have hremovals := removals_attributeModel_ne_nil happlies hmem hself
  exact ⟨attributeModel className pattern, mt (apply_eq_self_iff ..).mp hremovals, hremovals⟩

/-- A configuration does nothing to any model exactly if it has no pattern, in particular if it is
unset or its filter says that it changes nothing. With a pattern there is a model that it changes,
and it reports the removal. -/
theorem inert_iff_no_patterns (skips : SkipTypes) :
    ((ofSkips skips).Inert ↔ skips.patternCount = 0) ∧
    (skips.patternCount ≠ 0 →
      ∃ env, (ofSkips skips).apply env ≠ env ∧ ((ofSkips skips).report env).removals ≠ []) ∧
    (skips.isUnset = true → (ofSkips skips).Inert) ∧
    ((ofSkips skips).isNoop = true → (ofSkips skips).Inert) := by
  have hinert : skips.patterns = [] → (ofSkips skips).Inert :=
    inert_of_patterns_eq_nil (ofSkips skips)
  have hactive : skips.patterns ≠ [] →
      ∃ env, (ofSkips skips).apply env ≠ env ∧ ((ofSkips skips).report env).removals ≠ [] := by
    intro hsome
    obtain ⟨pattern, hpattern⟩ := List.exists_mem_of_ne_nil _ hsome
    exact exists_changed_of_mem_patterns (ofSkips skips) hpattern (Matcher.anywhere_self pattern)
  have hunset : skips.isUnset = true → (ofSkips skips).Inert :=
    fun h => hinert (SkipTypes.patterns_of_isUnset h)
  rw [ne_eq, skips.patternCount_eq_zero_iff]
  refine ⟨⟨fun h => ?_, hinert⟩, hactive, hunset, hunset⟩
  by_contra hsome
  obtain ⟨env, hchanged, -⟩ := hactive hsome
  exact hchanged (h env).1

/-- A list that is configured for one class and is empty. -/
def emptyListSkips : SkipTypes := .perClass (.ofList [("Shape", [])])

/-- The same beside a list with a pattern for another class. -/
def oneListSkips : SkipTypes :=
  .perClass (.ofList [("Shape", []), ("Body", [.tuple [.leaf "vector", .literal "3"]])])

/-- An empty list is not unset and does nothing all the same; one pattern beside it is enough to do
something. -/
theorem inert_iff_no_patterns_lists :
    (SkipTypes.ofJson (.object [("Shape", .array [])]) = .ok emptyListSkips ∧
      emptyListSkips.isUnset = false ∧ (ofSkips emptyListSkips).Inert) ∧
    (oneListSkips.patternCount ≠ 0 ∧ ∃ env, ((ofSkips oneListSkips).report env).removals ≠ []) ∧
    (SkipTypes.unset.isUnset = true ∧ (ofSkips .unset).isNoop = true ∧ (ofSkips .unset).Inert) := by
  have hcount : oneListSkips.patternCount ≠ 0 := by decide +kernel
  obtain ⟨env, -, hremovals⟩ := (inert_iff_no_patterns oneListSkips).2.1 hcount
  exact ⟨⟨rfl, rfl, (inert_iff_no_patterns emptyListSkips).1.mpr rfl⟩, ⟨hcount, env, hremovals⟩,
    rfl, rfl, (inert_iff_no_patterns .unset).2.2.1 rfl⟩

end Filter

end TypeSieve
