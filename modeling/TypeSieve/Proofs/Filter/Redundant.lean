import TypeSieve.Proofs.Dict
import TypeSieve.Proofs.Filter.Passes
import TypeSieve.Proofs.Matcher.Covering

/-!
# Redundant patterns

What a pass removes, and in which place of a member it finds the unwanted type, depends on the types
that each list of patterns spares; only the pattern that a removal names depends on the list itself.
A pattern that another one of its list covers can therefore be dropped: the same types are spared
without it.
-/

namespace TypeSieve

namespace Finding

/-- The reason for a removal besides the pattern: the place and the type. -/
def besidesPattern (found : Finding) : Site × TypeExpr := (found.site, found.matched)

end Finding

/-- What a removal says besides the pattern that matched. -/
def Removal.besidesPattern (r : Removal) : String × String × Member × Site × TypeExpr :=
  (r.module, r.className, r.member, r.finding.besidesPattern)

/-- What a report says besides the patterns that matched. -/
def Report.besidesPatterns (r : Report) : Nat × List (String × String × Member × Site × TypeExpr) :=
  (r.classesVisited, r.removals.map Removal.besidesPattern)

namespace Matcher

/-- Two lists of patterns spare the same types. -/
def SpareAlike (m : Matcher) (ps qs : List TypeExpr) : Prop :=
  ∀ type, m.Spares ps type ↔ m.Spares qs type

variable {m : Matcher} {ps qs : List TypeExpr}

/-- Lists that spare the same types find a match in the same types. -/
theorem SpareAlike.map_first? (h : m.SpareAlike ps qs) {α : Type} (value : α) (type : TypeExpr) :
    (m.first? ps type).map (fun _ => value) = (m.first? qs type).map fun _ => value := by
  have hnone : m.first? ps type = none ↔ m.first? qs type = none := by
    rw [first?_eq_none_iff, first?_eq_none_iff]
    exact h type
  cases hps : m.first? ps type with
  | none => rw [hnone.mp hps]
  | some p =>
    cases hqs : m.first? qs type with
    | none => simp [hnone.mpr hqs] at hps
    | some q => rfl

/-- They find the same parameter of a method. -/
theorem SpareAlike.paramFinding (h : m.SpareAlike ps qs) (index : Nat) (params : List Param) :
    (Filter.paramFinding m ps index params).map Finding.besidesPattern =
      (Filter.paramFinding m qs index params).map Finding.besidesPattern := by
  induction params generalizing index with
  | nil => rfl
  | cons p rest ih =>
    have hfirst := h.map_first? (Site.param index p.name, p.type) p.type
    rw [Filter.paramFinding, Filter.paramFinding]
    cases hps : m.first? ps p.type with
    | none =>
      cases hqs : m.first? qs p.type with
      | none => exact ih (index + 1)
      | some q => simp [hps, hqs] at hfirst
    | some pattern =>
      cases hqs : m.first? qs p.type with
      | none => simp [hps, hqs] at hfirst
      | some q => rfl

/-- They give the same reason to remove a member, up to the pattern. -/
theorem SpareAlike.finding (h : m.SpareAlike ps qs) (member : ClassMember) :
    (member.finding m ps).map Finding.besidesPattern =
      (member.finding m qs).map Finding.besidesPattern := by
  cases member with
  | attr name type =>
    simp only [ClassMember.finding, Filter.attributeFinding, Option.map_map]
    exact h.map_first? (Site.attribute, type) type
  | method entry =>
    obtain ⟨key, returns⟩ := entry
    have hreturns : (Filter.returnFinding m ps returns).map Finding.besidesPattern =
        (Filter.returnFinding m qs returns).map Finding.besidesPattern := by
      cases returns with
      | none => rfl
      | some type =>
        simp only [Filter.returnFinding, Option.bind_some, Option.map_map]
        exact h.map_first? (Site.returns, type) type
    simp only [ClassMember.finding, Filter.methodFinding, Option.map_or]
    rw [hreturns, h.paramFinding 0 key.params]

/-- A list spares the same types without a pattern that another one in it covers. -/
theorem spareAlike_eraseIdx {p q : TypeExpr} {i j : Nat} (hij : i ≠ j) (hp : ps[i]? = some p)
    (hq : ps[j]? = some q) (hcovers : m.Covers p q) : m.SpareAlike ps (ps.eraseIdx j) := by
  intro type
  constructor
  · intro h pattern hpattern
    exact h pattern (List.mem_of_mem_eraseIdx hpattern)
  · intro h pattern hpattern
    obtain ⟨k, hk⟩ := List.mem_iff_getElem?.mp hpattern
    by_cases hkj : k = j
    · -- This is the dropped pattern, and the one that covers it is left.
      subst hkj
      obtain rfl := Option.some.inj (hk.symm.trans hq)
      rw [Bool.eq_false_iff]
      intro hmatch
      have hspared := h p (List.mem_eraseIdx_iff_getElem?.mpr ⟨i, hij, hp⟩)
      rw [hcovers type hmatch] at hspared
      cases hspared
    · exact h pattern (List.mem_eraseIdx_iff_getElem?.mpr ⟨k, hkj, hk⟩)

end Matcher

namespace SkipTypes

/-- Two configurations have lists for the same classes, and these spare the same types. -/
def SpareAlike (m : Matcher) (skips other : SkipTypes) : Prop :=
  ∀ className, Option.Rel m.SpareAlike (skips.patternsFor className) (other.patternsFor className)

/-- Changing the list for all classes to one that spares the same types spares the same types. -/
theorem spareAlike_global {m : Matcher} {ps qs : List TypeExpr} (h : m.SpareAlike ps qs) :
    SpareAlike m (.global ps) (.global qs) := fun _ => .some h

/-- Changing the list of a class to one that spares the same types spares the same types. -/
theorem spareAlike_insert {m : Matcher} {lists : Dict (List TypeExpr)} {name : String}
    {ps qs : List TypeExpr} (hps : lists.get? name = some ps) (h : m.SpareAlike ps qs) :
    SpareAlike m (.perClass lists) (.perClass (lists.insert name qs)) := by
  intro className
  rw [patternsFor, patternsFor, Dict.get?_insert]
  split
  · next hname =>
    subst hname
    rw [hps]
    exact .some h
  · cases lists.get? className with
    | none => exact .none
    | some patterns => exact .some fun _ => Iff.rfl

end SkipTypes

namespace Filter

variable {m : Matcher} {skips other : SkipTypes}

/-- Configurations that spare the same types remove the same members, up to the patterns that they
name. -/
theorem map_removalOf_of_spareAlike (h : skips.SpareAlike m other) (p : PlacedMember) :
    (removalOf ⟨skips, m⟩ p).map Removal.besidesPattern =
      (removalOf ⟨other, m⟩ p).map Removal.besidesPattern := by
  have hsplit : ∀ f : Filter, (f.removalOf p).map Removal.besidesPattern =
      (f.skips.patternsFor p.className).bind fun patterns =>
        ((p.member.finding f.matcher patterns).map Finding.besidesPattern).map fun found =>
          (p.module, p.className, p.member.shown, found) := by
    intro f
    rw [removalOf, Option.map_bind]
    simp only [Function.comp_def, Option.map_map]
    rfl
  rw [hsplit, hsplit]
  have hrel := h p.className
  dsimp only
  generalize skips.patternsFor p.className = found,
    other.patternsFor p.className = otherFound at hrel ⊢
  cases hrel with
  | none => rfl
  | some halike => rw [Option.bind_some, Option.bind_some, halike.finding]

/-- Configurations that spare the same types keep the same members of each class. -/
theorem keeps_of_spareAlike (h : skips.SpareAlike m other) (className : String)
    (member : ClassMember) :
    keeps ⟨skips, m⟩ className member = keeps ⟨other, m⟩ className member := by
  have hrel := h className
  unfold keeps
  dsimp only
  generalize skips.patternsFor className = found, other.patternsFor className = otherFound at hrel ⊢
  cases hrel with
  | none => rfl
  | some halike =>
    rw [Option.bind_some, Option.bind_some, ← Option.isNone_map (f := Finding.besidesPattern),
      halike.finding, Option.isNone_map]

/-- A pass and the same pass with another configuration leave the same model, and their reports
differ at most in the patterns that their removals name. -/
structure SameButPatterns (f g : Filter) (env : Environment) : Prop where
  apply : g.apply env = f.apply env
  report : (g.report env).besidesPatterns = (f.report env).besidesPatterns

/-- Configurations that spare the same types differ at most in the patterns that removals name. -/
theorem sameButPatterns_of_spareAlike (h : skips.SpareAlike m other) (env : Environment) :
    SameButPatterns ⟨skips, m⟩ ⟨other, m⟩ env := by
  have hcovers : ∀ className, other.Covers className ↔ skips.Covers className := by
    intro className
    rw [← SkipTypes.isSome_patternsFor, ← SkipTypes.isSome_patternsFor]
    have hrel := h className
    generalize skips.patternsFor className = found,
      other.patternsFor className = otherFound at hrel ⊢
    cases hrel with
    | none => rfl
    | some halike => rfl
  refine ⟨?_, Prod.ext ?_ ?_⟩
  · have hkeeps : ∀ className, keeps ⟨other, m⟩ className = keeps ⟨skips, m⟩ className :=
      fun className => funext fun member => (keeps_of_spareAlike h className member).symm
    simp only [apply_eq_mapClasses, treat_eq_keep, hkeeps]
  · simp only [Report.besidesPatterns, classesVisited_eq_countP, hcovers]
  · simp only [Report.besidesPatterns, removals_eq_filterMap, List.map_filterMap,
      map_removalOf_of_spareAlike h]

/-- A pattern matches anywhere in every type in which another does exactly if it matches anywhere in
the other. Then the other one may be dropped from every list in which both stand at different
places, a list for all classes or that of one class: the pass leaves the same model, and its report
differs at most in the patterns that the removals name. -/
theorem redundant_iff_anywhere (p q : TypeExpr) :
    ((∀ candidate, Matcher.anywhere Matcher.exact q candidate = true →
        Matcher.anywhere Matcher.exact p candidate = true) ↔
      Matcher.anywhere Matcher.exact p q = true) ∧
    (Matcher.anywhere Matcher.exact p q = true → ∀ (patterns : List TypeExpr) (i j : Nat), i ≠ j →
      patterns[i]? = some p → patterns[j]? = some q → ∀ env : Environment,
        SameButPatterns (ofSkips (.global patterns)) (ofSkips (.global (patterns.eraseIdx j))) env ∧
        ∀ (lists : Dict (List TypeExpr)) (className : String),
          lists.get? className = some patterns →
            SameButPatterns (ofSkips (.perClass lists))
              (ofSkips (.perClass (lists.insert className (patterns.eraseIdx j)))) env) := by
  refine ⟨Matcher.covers_exact_iff p q, fun hmatch patterns i j hij hp hq env => ?_⟩
  have halike : Matcher.SpareAlike Matcher.exact patterns (patterns.eraseIdx j) :=
    Matcher.spareAlike_eraseIdx hij hp hq ((Matcher.covers_exact_iff p q).mpr hmatch)
  constructor
  · exact sameButPatterns_of_spareAlike (SkipTypes.spareAlike_global halike) env
  · intro lists className hlist
    exact sameButPatterns_of_spareAlike (SkipTypes.spareAlike_insert hlist halike) env

/-- A pattern for constant vectors of anything, and a name that occurs in it. -/
def vectorsFirst : List TypeExpr :=
  [.tuple [.leaf "vector", .leaf "?", .leaf "const"], .leaf "vector"]

/-- A class with a vector among its attributes. -/
def constVectorModel : Environment :=
  Environment.empty.insertClass "geometry" (((ClassDescription.ofName "Shape").withAttr "corners"
    (.tuple [.leaf "vector", .leaf "float64", .leaf "const"])).withAttr "sides" (.leaf "uint8"))

/-- The name makes the pattern of vectors redundant: without it the attribute goes as well, for the
name. -/
theorem redundant_iff_anywhere_vectors :
    Matcher.anywhere Matcher.exact (.leaf "vector")
        (.tuple [.leaf "vector", .leaf "?", .leaf "const"]) = true ∧
      (1 : Nat) ≠ 0 ∧ vectorsFirst[1]? = some (.leaf "vector") ∧
      SameButPatterns (ofSkips (.global vectorsFirst)) (ofSkips (.global [.leaf "vector"]))
        constVectorModel ∧
      ((ofSkips (.global [.leaf "vector"])).report constVectorModel).size = 1 ∧
      (ofSkips (.global [.leaf "vector"])).report constVectorModel ≠
        (ofSkips (.global vectorsFirst)).report constVectorModel := by
  have hmatch : Matcher.anywhere Matcher.exact (.leaf "vector")
      (.tuple [.leaf "vector", .leaf "?", .leaf "const"]) = true := by decide +kernel
  have hsame := ((redundant_iff_anywhere _ _).2 hmatch vectorsFirst 1 0 (by decide) rfl rfl
    constVectorModel).1
  exact ⟨hmatch, by decide, rfl, hsame, by decide +kernel, by decide +kernel⟩

end Filter

end TypeSieve
