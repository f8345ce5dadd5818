import TypeSieve.Proofs.Filter.Redundant

/-!
# Lists with the same patterns

A list of patterns spares a type if none of its patterns matches anywhere in it, so neither the
order of the patterns nor their repetitions matter for what a pass removes and where it finds the
unwanted type. They matter for the first pattern that matches there, and so only for the patterns
that a report names.
-/

namespace TypeSieve

namespace SkipTypes

/-- Two configurations of one shape, both for all classes or both for the classes of the same names,
have the same patterns in corresponding lists, in any order and with any repetitions. -/
inductive SamePatterns : SkipTypes → SkipTypes → Prop
  | global {ps qs : List TypeExpr} (hsame : ∀ pattern, pattern ∈ ps ↔ pattern ∈ qs) :
    SamePatterns (.global ps) (.global qs)
  | perClass {lists others : Dict (List TypeExpr)} (hkeys : lists.keys = others.keys)
    (hsame : ∀ name ps qs, lists.get? name = some ps → others.get? name = some qs →
      ∀ pattern, pattern ∈ ps ↔ pattern ∈ qs) :
    SamePatterns (.perClass lists) (.perClass others)

/-- Lists of the same patterns spare the same types. -/
theorem spareAlike_of_mem_iff (m : Matcher) {ps qs : List TypeExpr}
    (h : ∀ pattern, pattern ∈ ps ↔ pattern ∈ qs) : m.SpareAlike ps qs := by
  intro type
  constructor
  · exact fun hspares pattern hpattern => hspares pattern ((h pattern).mpr hpattern)
  · exact fun hspares pattern hpattern => hspares pattern ((h pattern).mp hpattern)

/-- Configurations with the same patterns spare the same types. -/
theorem SamePatterns.spareAlike {skips other : SkipTypes} (h : skips.SamePatterns other)
    (m : Matcher) : SpareAlike m skips other := by
  cases h with
  | global hsame => exact spareAlike_global (spareAlike_of_mem_iff m hsame)
  | @perClass lists others hkeys hsame =>
    intro className
    have hnone : lists.get? className = none ↔ others.get? className = none := by
      rw [Dict.get?_eq_none_iff, Dict.get?_eq_none_iff, hkeys]
    rw [patternsFor, patternsFor]
    cases hps : lists.get? className with
    | none =>
      rw [hnone.mp hps]
      exact .none
    | some ps =>
      cases hqs : others.get? className with
      | none => simp [hnone.mpr hqs] at hps
      | some qs => exact .some (spareAlike_of_mem_iff m (hsame className ps qs hps hqs))

end SkipTypes

namespace Filter

/-- Whatever the rule that recognises unwanted types, configurations of one shape with the same
patterns in corresponding lists leave the same model, visit as many classes and remove the same
members in the same order, each for the same place and the same type in it: their reports differ at
most in the patterns that the removals name. -/
theorem sameButPatterns_of_samePatterns (m : Matcher) {skips other : SkipTypes}
    (h : skips.SamePatterns other) (env : Environment) :
    SameButPatterns ⟨skips, m⟩ ⟨other, m⟩ env :=
  sameButPatterns_of_spareAlike (h.spareAlike m) env

/-- Lists for two classes, the first with two patterns. -/
def orderedLists : Dict (List TypeExpr) :=
  .ofList [("Shape", [.leaf "float64", .leaf "vector"]), ("Unit", [])]

/-- The same lists with the two patterns in the other order, one of them repeated. -/
def repeatedLists : Dict (List TypeExpr) :=
  .ofList [("Shape", [.leaf "vector", .leaf "float64", .leaf "vector"]), ("Unit", [])]

/-- A class with a vector of numbers among its attributes and as a parameter of a method. -/
def vectorsModel : Environment :=
  Environment.empty.insertClass "geometry" (((ClassDescription.ofName "Shape").withAttr "corners"
    (.tuple [.leaf "vector", .leaf "float64"])).withMethod
      ⟨"move",
        [⟨"sides", .leaf "uint8", none⟩,
          ⟨"by", .tuple [.leaf "vector", .leaf "float64"], none⟩]⟩ none)

/-- Both vectors go, for whichever of the patterns comes first. -/
theorem sameButPatterns_of_samePatterns_vectors :
    (SkipTypes.perClass orderedLists).SamePatterns (.perClass repeatedLists) ∧
      SameButPatterns ⟨.perClass orderedLists,
        Matcher.exact⟩ ⟨.perClass repeatedLists, Matcher.exact⟩
        vectorsModel ∧
      (report ⟨.perClass orderedLists, Matcher.exact⟩ vectorsModel).size = 2 ∧
      report ⟨.perClass orderedLists, Matcher.exact⟩ vectorsModel ≠
        report ⟨.perClass repeatedLists, Matcher.exact⟩ vectorsModel := by
  have hsame : (SkipTypes.perClass orderedLists).SamePatterns (.perClass repeatedLists) := by
    refine .perClass (by decide +kernel) fun name ps qs hps hqs pattern => ?_
    rw [Dict.get?_eq_some_iff] at hps hqs
    have hordered : orderedLists.entries =
        [("Shape", [.leaf "float64", .leaf "vector"]), ("Unit", [])] := by decide +kernel
    have hrepeated : repeatedLists.entries =
        [("Shape", [.leaf "vector", .leaf "float64", .leaf "vector"]), ("Unit", [])] := by
          decide +kernel
    rw [hordered] at hps
    rw [hrepeated] at hqs
    simp only [List.mem_cons, Prod.mk.injEq, List.not_mem_nil, or_false] at hps hqs
    rcases hps with ⟨rfl, rfl⟩ | ⟨rfl, rfl⟩ <;> rcases hqs with ⟨hname, rfl⟩ | ⟨hname, rfl⟩
    · simp only [List.mem_cons, List.not_mem_nil, or_false]
      tauto
    · exact absurd hname (by decide)
    · exact absurd hname (by decide)
    · exact Iff.rfl
  exact ⟨hsame, sameButPatterns_of_samePatterns Matcher.exact hsame vectorsModel, by decide +kernel,
    by decide +kernel⟩

end Filter

end TypeSieve
