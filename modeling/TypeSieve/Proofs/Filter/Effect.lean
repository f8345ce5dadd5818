import TypeSieve.Proofs.Filter.Spared
import TypeSieve.Proofs.Model.Places

/-!
# The effect of a filter pass

What a pass leaves is described without the search that finds the reasons for removals: a class
keeps the attributes and the methods that its list of patterns spares, and everything else in the
model stays. The description admits one model only, so a pass does what it says and nothing besides.

The rule that recognises unwanted types is arbitrary throughout.
-/

namespace TypeSieve

namespace Filter

/-- How a class looks before and after a pass. -/
structure ClassEffect (f : Filter) (before after : ClassDescription) : Prop where
  name : after.name = before.name
  extra : after.extra = before.extra
  /-- The attributes that remain are those whose type the list of the class spares. -/
  attrs : ∀ patterns, f.skips.Applies before.name patterns → ∀ attr type,
    after.attrs.get? attr = some type ↔
      before.attrs.get? attr = some type ∧ f.matcher.Spares patterns type
  /-- The methods that remain are those that the list of the class spares, in their order. -/
  methods : ∀ patterns, f.skips.Applies before.name patterns →
    after.methods.entries =
      before.methods.entries.filter fun entry => decide (f.matcher.SparesMethod patterns entry)
  untouched : ¬ f.skips.Covers before.name → after = before

/-- How a model looks before and after a pass. -/
structure Effect (f : Filter) (before after : Environment) : Prop where
  moduleNames : after.moduleNames = before.moduleNames
  entityNames : ∀ module, after.entityNames module = before.entityNames module
  others : ∀ module entity value, after.descriptor? module entity = some (.other value) ↔
    before.descriptor? module entity = some (.other value)
  classes : ∀ module entity c, before.class? module entity = some c →
    ∃ kept, after.class? module entity = some kept ∧ f.ClassEffect c kept
  idle : f.skips = .unset → after = before

/-- What a pass makes of one class. -/
def treat (f : Filter) (c : ClassDescription) : ClassDescription :=
  match f.skips.patternsFor c.name with
  | some patterns => filterClass f.matcher patterns c
  | none => c

/-- A pass treats every class on its own. -/
theorem apply_eq_mapClasses (f : Filter) (env : Environment) :
    f.apply env = env.mapClasses fun _ c => f.treat c := rfl

/-- A class that a list applies to loses what the list does not spare. -/
theorem treat_of_applies {f : Filter} {c : ClassDescription} {patterns : List TypeExpr}
    (h : f.skips.Applies c.name patterns) : f.treat c = filterClass f.matcher patterns c := by
  rw [treat, (f.skips.patternsFor_eq_some_iff c.name patterns).mpr h]

/-- A class that no list applies to stays as it is. -/
theorem treat_of_not_covers {f : Filter} {c : ClassDescription} (h : ¬ f.skips.Covers c.name) :
    f.treat c = c := by
  have hnone : f.skips.patternsFor c.name = none := by
    rw [SkipTypes.patternsFor_eq_none_iff]
    intro patterns happlies
    exact h ⟨patterns, happlies⟩
  rw [treat, hnone]

/-- Filtering a class keeps the attributes that are spared. -/
theorem get?_attrs_filterClass (m : Matcher) (patterns : List TypeExpr) (c : ClassDescription)
    (attr : String) (type : TypeExpr) :
    (filterClass m patterns c).attrs.get? attr = some type ↔
      c.attrs.get? attr = some type ∧ m.Spares patterns type := by
  rw [← attributeFinding_eq_none_iff, ← Option.isNone_iff_eq_none]
  exact Dict.get?_filter_eq_some_iff _ _ attr type

/-- Filtering a class keeps the methods that are spared. -/
theorem entries_methods_filterClass (m : Matcher) (patterns : List TypeExpr)
    (c : ClassDescription) :
    (filterClass m patterns c).methods.entries =
      c.methods.entries.filter fun entry => decide (m.SparesMethod patterns entry) := by
  refine List.filter_congr fun entry _ => ?_
  rw [Bool.eq_iff_iff, decide_eq_true_iff, Option.isNone_iff_eq_none, methodFinding_eq_none_iff]

/-- The treatment of a class has the effect of a pass on it. -/
theorem classEffect_treat (f : Filter) (c : ClassDescription) : f.ClassEffect c (f.treat c) := by
  by_cases hcovers : f.skips.Covers c.name
  · obtain ⟨patterns, happlies⟩ := hcovers
    have honly : ∀ other, f.skips.Applies c.name other → other = patterns := by
      intro other hother
      rw [← SkipTypes.patternsFor_eq_some_iff] at happlies hother
      exact Option.some.inj (hother.symm.trans happlies)
    rw [treat_of_applies happlies]
    refine ⟨rfl, rfl, ?_, ?_, fun hnot => absurd ⟨patterns, happlies⟩ hnot⟩
    · intro other hother attr type
      rw [honly other hother]
      exact get?_attrs_filterClass f.matcher patterns c attr type
    · intro other hother
      rw [honly other hother]
      exact entries_methods_filterClass f.matcher patterns c
  · rw [treat_of_not_covers hcovers]
    exact ⟨rfl, rfl, fun patterns happlies => absurd ⟨patterns, happlies⟩ hcovers,
      fun patterns happlies => absurd ⟨patterns, happlies⟩ hcovers, fun _ => rfl⟩

/-- The effect on a class leaves no choice. -/
theorem ClassEffect.unique {f : Filter} {c a b : ClassDescription} (ha : f.ClassEffect c a)
    (hb : f.ClassEffect c b) : a = b := by
  by_cases hcovers : f.skips.Covers c.name
  · obtain ⟨patterns, happlies⟩ := hcovers
    apply ClassDescription.ext
    · rw [ha.name, hb.name]
    · refine Dict.ext_get? fun attr => Option.ext fun type => ?_
      rw [ha.attrs patterns happlies, hb.attrs patterns happlies]
    · apply Methods.ext
      rw [ha.methods patterns happlies, hb.methods patterns happlies]
    · rw [ha.extra, hb.extra]
  · rw [ha.untouched hcovers, hb.untouched hcovers]

/-- A pass has its effect. -/
theorem effect_apply (f : Filter) (env : Environment) : f.Effect env (f.apply env) := by
  rw [apply_eq_mapClasses]
  refine ⟨env.moduleNames_mapClasses _, env.entityNames_mapClasses _, ?_, ?_, ?_⟩
  · intro module entity value
    rw [Environment.descriptor?_mapClasses, Option.map_eq_some_iff]
    constructor
    · intro h
      obtain ⟨d, hplace, hother⟩ := h
      rw [hplace, (Descriptor.mapClass_eq_other_iff _ d value).mp hother]
    · intro hplace
      exact ⟨.other value, hplace, rfl⟩
  · intro module entity c hclass
    refine ⟨f.treat c, ?_, f.classEffect_treat c⟩
    rw [Environment.class?_mapClasses, hclass, Option.map_some]
  · intro hunset
    have htreat : f.treat = fun c => c := by
      funext c
      rw [treat, hunset]
      rfl
    rw [htreat]
    exact env.mapClasses_id

/-- Two models with the effect of a pass have the same descriptor at every place. -/
theorem Effect.descriptor?_eq {f : Filter} {env a b : Environment} (ha : f.Effect env a)
    (hb : f.Effect env b) (module entity : String) :
    a.descriptor? module entity = b.descriptor? module entity := by
  cases hplace : env.descriptor? module entity with
  | none =>
    have hnone : ∀ after : Environment, f.Effect env after →
        after.descriptor? module entity = none := by
      intro after h
      rw [Environment.descriptor?_eq_none_iff, h.entityNames, ← Environment.descriptor?_eq_none_iff]
      exact hplace
    rw [hnone a ha, hnone b hb]
  | some d =>
    cases d with
    | other value =>
      rw [(ha.others module entity value).mpr hplace, (hb.others module entity value).mpr hplace]
    | ofClass c =>
      have hclass := (env.class?_eq_some_iff module entity c).mpr hplace
      obtain ⟨left, hleft, heffect⟩ := ha.classes module entity c hclass
      obtain ⟨right, hright, heffect'⟩ := hb.classes module entity c hclass
      rw [(a.class?_eq_some_iff module entity left).mp hleft,
        (b.class?_eq_some_iff module entity right).mp hright, heffect.unique heffect']

/-- A pass turns a model into the one that has its effect: module names, entity names and
descriptors other than classes stay, a class keeps its name, its other fields and exactly the
attributes and methods that its list of patterns spares, and a class without a list, or any class if
nothing is configured, stays as it is. -/
theorem apply_eq_iff_effect (f : Filter) (before after : Environment) :
    f.apply before = after ↔ f.Effect before after := by
  constructor
  · intro h
    rw [← h]
    exact f.effect_apply before
  · intro h
    have heffect := f.effect_apply before
    refine Environment.ext_descriptor? (fun module => ?_) (heffect.descriptor?_eq h)
    rw [heffect.entityNames, h.entityNames]

end Filter

end TypeSieve
