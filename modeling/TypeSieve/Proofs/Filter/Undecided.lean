import TypeSieve.Matcher.Loose
import TypeSieve.Proofs.Filter.Passes
import TypeSieve.Proofs.Matcher.Alignment

/-!
# Types that cannot be evaluated

A pass asks its matcher about whole types and about their atoms, in several places, and everywhere
only whether the pattern matches. Matchers that match alike therefore do the same to every model,
and it does not matter whether a matcher says that a pattern cannot be evaluated or that it does not
match.
-/

namespace TypeSieve

namespace Matcher

/-- The matcher that answers no match where another cannot evaluate the candidate. -/
def decided (m : Matcher) : Matcher := fun pattern candidate =>
  match m pattern candidate with
  | .incompatible => .unmatched
  | outcome => outcome

/-- Two matchers match the same patterns with the same candidates; where they do not match, their
answers may differ. -/
def MatchAlike (m n : Matcher) : Prop :=
  ∀ pattern candidate, m pattern candidate = .matched ↔ n pattern candidate = .matched

/-- Deciding what cannot be evaluated adds no match and takes none away. -/
theorem matchAlike_decided (m : Matcher) : m.MatchAlike m.decided := by
  intro pattern candidate
  rw [decided]
  cases m pattern candidate <;> simp

namespace MatchAlike

variable {m n : Matcher} (h : m.MatchAlike n)
include h

/-- Matchers that match alike match anywhere in the same types. -/
theorem anywhere : m.anywhere = n.anywhere := by
  funext pattern candidate
  rw [Bool.eq_iff_iff, anywhere_iff, anywhere_iff]
  simp only [h pattern]

/-- They find the same pattern of a list. -/
theorem first? : m.first? = n.first? := by
  funext patterns candidate
  rw [Matcher.first?, Matcher.first?, h.anywhere]

/-- They find the same parameter of a method. -/
theorem paramFinding (patterns : List TypeExpr) (index : Nat) (params : List Param) :
    Filter.paramFinding m patterns index params = Filter.paramFinding n patterns index params := by
  induction params generalizing index with
  | nil => rfl
  | cons p rest ih => rw [Filter.paramFinding, Filter.paramFinding, h.first?, ih]

/-- They give the same reason to remove a member. -/
theorem finding (patterns : List TypeExpr) (member : ClassMember) :
    member.finding m patterns = member.finding n patterns := by
  cases member with
  | attr name type =>
    rw [ClassMember.finding, ClassMember.finding, Filter.attributeFinding,
      Filter.attributeFinding, h.first?]
  | method entry =>
    rw [ClassMember.finding, ClassMember.finding, Filter.methodFinding, Filter.methodFinding,
      Filter.returnFinding, Filter.returnFinding, h.first?, h.paramFinding]

/-- They leave the same model. -/
theorem apply (skips : SkipTypes) (env : Environment) :
    Filter.apply ⟨skips, m⟩ env = Filter.apply ⟨skips, n⟩ env := by
  have hkeeps : Filter.keeps ⟨skips, m⟩ = Filter.keeps ⟨skips, n⟩ := by
    funext className member
    simp only [Filter.keeps, h.finding]
  simp only [Filter.apply_eq_mapClasses, Filter.treat_eq_keep, hkeeps]

/-- They give the same report. -/
theorem report (skips : SkipTypes) (env : Environment) :
    Filter.report ⟨skips, m⟩ env = Filter.report ⟨skips, n⟩ env := by
  have hremovals : Filter.removalOf ⟨skips, m⟩ = Filter.removalOf ⟨skips, n⟩ := by
    funext p
    simp only [Filter.removalOf, h.finding]
  have hvisited : (Filter.report ⟨skips, m⟩ env).classesVisited =
      (Filter.report ⟨skips, n⟩ env).classesVisited := rfl
  have hlist : (Filter.report ⟨skips, m⟩ env).removals =
      (Filter.report ⟨skips, n⟩ env).removals := by
    rw [Filter.removals_eq_filterMap, Filter.removals_eq_filterMap, hremovals]
  exact congrArg₂ Report.mk hvisited hlist

end MatchAlike

/-- A matcher that never matches finds no reason to remove a member. -/
theorem finding_of_never {m : Matcher} (h : ∀ pattern candidate, m pattern candidate ≠ .matched)
    (patterns : List TypeExpr) (member : ClassMember) : member.finding m patterns = none := by
  have hspares : ∀ type, m.Spares patterns type := by
    intro type pattern _
    rw [Bool.eq_false_iff, ne_eq, anywhere_iff]
    rintro (hwhole | ⟨atom, -, hatom⟩)
    · exact h pattern type hwhole
    · exact h pattern atom hatom
  cases member with
  | attr name type => exact (Filter.attributeFinding_eq_none_iff ..).mpr (hspares type)
  | method entry =>
    exact (Filter.methodFinding_eq_none_iff ..).mpr
      ⟨fun type _ => hspares type, fun p _ => hspares p.type⟩

end Matcher

namespace Filter

/-- Whether a matcher says that a pattern cannot be evaluated or that it does not match makes no
difference to the model that a pass leaves or to its report. A matcher that never matches removes
nothing from any model. -/
theorem pass_decided (m : Matcher) (skips : SkipTypes) (env : Environment) :
    apply ⟨skips, m.decided⟩ env = apply ⟨skips, m⟩ env ∧
      report ⟨skips, m.decided⟩ env = report ⟨skips, m⟩ env ∧
      ((∀ pattern candidate, m pattern candidate ≠ .matched) →
        apply ⟨skips, m⟩ env = env ∧ (report ⟨skips, m⟩ env).removals = []) := by
  refine ⟨(m.matchAlike_decided.apply skips env).symm, (m.matchAlike_decided.report skips env).symm,
    fun hnever => ⟨?_, ?_⟩⟩
  · have hkeeps : ∀ className, keeps ⟨skips, m⟩ className = fun _ => true := by
      intro className
      funext member
      simp [keeps, m.finding_of_never hnever]
    simp only [apply_eq_mapClasses, treat_eq_keep, hkeeps, ClassDescription.keep_true]
    exact env.mapClasses_id
  · rw [removals_eq_filterMap, List.filterMap_eq_nil_iff]
    intro p _
    simp [removalOf, Matcher.finding_of_never hnever]

/-- A pattern that names can be compared with regardless of case, behind one that they cannot. -/
def unevenPatterns : List TypeExpr := [.tuple [.leaf "string", .leaf "const"], .leaf "FLOAT64"]

/-- A class with an attribute of either type. -/
def unevenModel : Environment :=
  Environment.empty.insertClass "geometry" (((ClassDescription.ofName "Shape").withAttr "label"
    (.tuple [.leaf "string", .leaf "const"])).withAttr "x"
      (.tuple [.leaf "float64", .leaf "const"]))

/-- The matcher cannot evaluate the tuple and removes the number, as its decided version does; the
one that can evaluate nothing removes nothing. -/
theorem pass_decided_uneven :
    Matcher.caseless (.tuple [.leaf "string", .leaf "const"]) (.leaf "float64") = .incompatible ∧
      report ⟨.global unevenPatterns, Matcher.caseless.decided⟩ unevenModel =
        report ⟨.global unevenPatterns, Matcher.caseless⟩ unevenModel ∧
      (report ⟨.global unevenPatterns, Matcher.caseless⟩ unevenModel).size = 1 ∧
      (∀ pattern candidate, Matcher.blind pattern candidate ≠ .matched) ∧
      apply ⟨.global unevenPatterns, Matcher.blind⟩ unevenModel = unevenModel := by
  have hnever : ∀ pattern candidate, Matcher.blind pattern candidate ≠ .matched :=
    fun _ _ => Outcome.noConfusion
  exact ⟨rfl, (pass_decided Matcher.caseless (.global unevenPatterns) unevenModel).2.1,
    by decide +kernel, hnever,
    ((pass_decided Matcher.blind (.global unevenPatterns) unevenModel).2.2 hnever).1⟩

end Filter

end TypeSieve
