import TypeSieve.Proofs.Filter.Account
import TypeSieve.Proofs.Matcher.Alignment
import TypeSieve.Proofs.SkipTypes.Checked

/-!
# Removed members are related to their patterns

Checked patterns have atoms, and without the wildcard an exact match finds them in the type. So
whatever is removed has, in the type that its removal names, all atoms of the pattern that is named,
and a member whose types share no atom with a pattern of its class stays.
-/

namespace TypeSieve

namespace ClassMember

/-- The types in a member: that of an attribute, or the return type and the parameter types of a
method. -/
def types : ClassMember → List TypeExpr
  | .attr _ type => [type]
  | .method entry => entry.2.toList ++ entry.1.params.map Param.type

end ClassMember

namespace Matcher

variable {m : Matcher} {patterns : List TypeExpr}

/-- A first match is a match with a pattern of the list. -/
theorem FirstMatch.mem_and_anywhere {type pattern : TypeExpr}
    (h : m.FirstMatch patterns type pattern) :
    pattern ∈ patterns ∧ m.anywhere pattern type = true := by
  obtain ⟨earlier, later, rfl, hmatch, -⟩ := h
  exact ⟨List.mem_append_right _ (List.mem_cons_self ..), hmatch⟩

/-- A reason to remove a member is a first match of one of the types in it. -/
theorem Reason.matched_mem_types {member : ClassMember} {found : Finding}
    (h : m.Reason patterns member found) :
    found.matched ∈ member.types ∧ m.FirstMatch patterns found.matched found.pattern := by
  rcases h with hfirst | hfirst | ⟨hreturns, hparam, hearlier, hfirst⟩
  · exact ⟨List.mem_singleton_self _, hfirst⟩
  · exact ⟨List.mem_append_left _ (List.mem_singleton_self _), hfirst⟩
  · have hmem := List.mem_of_getElem? hparam
    exact ⟨List.mem_append_right _ (List.mem_map.mpr ⟨_, hmem, rfl⟩), hfirst⟩

end Matcher

namespace Filter

/-- A type and a pattern are related if the atoms of the pattern, of which there are some, are among
those of the type in the same order. -/
def Related (pattern type : TypeExpr) : Prop :=
  pattern.atoms ≠ [] ∧ pattern.atoms.Sublist type.atoms

/-- Related types share an atom. -/
theorem Related.exists_atom {pattern type : TypeExpr} (h : Related pattern type) :
    ∃ atom ∈ pattern.atoms, atom ∈ type.atoms := by
  obtain ⟨atom, hatom⟩ := List.exists_mem_of_ne_nil _ h.1
  exact ⟨atom, hatom, h.2.subset hatom⟩

/-- The removal of a member names a pattern of its class and a type in the member that are
related. -/
theorem related_of_removalOf {skips : SkipTypes} (hchecked : skips.Checked)
    (hwild : ∀ pattern ∈ skips.patterns, .leaf Matcher.wildcard ∉ pattern.atoms) {p : PlacedMember}
    {r : Removal} (h : (ofSkips skips).removalOf p = some r) :
    Related r.finding.pattern r.finding.matched ∧ r.finding.matched ∈ p.member.types ∧
      ∃ patterns, skips.Applies p.className patterns ∧ r.finding.pattern ∈ patterns := by
  obtain ⟨patterns, happlies, hreason⟩ := (accounts_of_removalOf h).finding
  obtain ⟨htype, hfirst⟩ := hreason.matched_mem_types
  obtain ⟨hmem, hmatch⟩ := hfirst.mem_and_anywhere
  have hpattern : r.finding.pattern ∈ skips.patterns := happlies.mem_patterns hmem
  exact ⟨⟨TypeExpr.atoms_ne_nil (hchecked.hasEmptyTuple hpattern),
    Matcher.atoms_sublist_of_anywhere hmatch (hwild _ hpattern)⟩, htype, patterns, happlies, hmem⟩

/-- With checked patterns and without the wildcard, every removal of the exact filter names a
pattern whose atoms, of which there are some, are among those of the matched type in the same order.
A member with no type that has an atom of a pattern of its class stays. -/
theorem removals_related {skips : SkipTypes} (hchecked : skips.Checked)
    (hwild : ∀ pattern ∈ skips.patterns, .leaf Matcher.wildcard ∉ pattern.atoms)
    (env : Environment) :
    (∀ r ∈ ((ofSkips skips).report env).removals,
      r.finding.pattern.atoms ≠ [] ∧ r.finding.pattern.atoms.Sublist r.finding.matched.atoms) ∧
    ∀ p ∈ env.members, (∀ patterns, skips.Applies p.className patterns → ∀ pattern ∈ patterns,
        ∀ type ∈ p.member.types, ∀ atom ∈ pattern.atoms, atom ∉ type.atoms) →
      p ∈ ((ofSkips skips).apply env).members := by
  constructor
  · intro r hr
    rw [removals_eq_filterMap] at hr
    obtain ⟨p, -, hremoval⟩ := List.mem_filterMap.mp hr
    exact (related_of_removalOf hchecked hwild hremoval).1
  · intro p hp hunrelated
    rw [members_apply, List.mem_filter]
    refine ⟨hp, ?_⟩
    cases hremoval : (ofSkips skips).removalOf p with
    | none => rfl
    | some r =>
      obtain ⟨hrelated, htype, patterns, happlies, hmem⟩ :=
        related_of_removalOf hchecked hwild hremoval
      obtain ⟨atom, hatom, hfound⟩ := hrelated.exists_atom
      exact absurd hfound (hunrelated patterns happlies _ hmem _ htype atom hatom)

/-- A list of patterns: a name, and the beginning of a tuple. -/
def vectorPatterns : Json := .array [.string "float64", .array [.string "vector", .string "int32"]]

/-- The configuration that is read from this list. -/
def vectorSkips : SkipTypes := .global [.leaf "float64", .tuple [.leaf "vector", .leaf "int32"]]

/-- A class with an attribute that begins as the tuple pattern, one that holds the unwanted name,
and one with neither. -/
def vectorModel : Environment :=
  Environment.empty.insertClass "geometry" ((((ClassDescription.ofName "Shape").withAttr "corners"
    (.tuple [.leaf "vector", .leaf "int32", .leaf "const"])).withAttr "scale"
    (.tuple [.tuple [.leaf "vector", .leaf "float64"], .leaf "&"])).withAttr "sides"
      (.leaf "uint8"))

/-- Two attributes of the model go, for related patterns, and the third stays. -/
theorem removals_related_vectors :
    SkipTypes.ofJson vectorPatterns = .ok vectorSkips ∧
      ((ofSkips vectorSkips).report vectorModel).size = 2 ∧
      (∀ r ∈ ((ofSkips vectorSkips).report vectorModel).removals,
        Related r.finding.pattern r.finding.matched) ∧
      ⟨"geometry", "Shape", "Shape", .attr "sides" (.leaf "uint8")⟩ ∈
        ((ofSkips vectorSkips).apply vectorModel).members := by
  have hread : SkipTypes.ofJson vectorPatterns = .ok vectorSkips := rfl
  have hwild : ∀ pattern ∈ vectorSkips.patterns, .leaf Matcher.wildcard ∉ pattern.atoms := by
    decide +kernel
  obtain ⟨hrelated, hstay⟩ := removals_related (.value hread) hwild vectorModel
  refine ⟨hread, by decide +kernel, hrelated, hstay _ (by decide +kernel) ?_⟩
  intro patterns happlies
  cases happlies
  decide +kernel

end Filter

end TypeSieve
