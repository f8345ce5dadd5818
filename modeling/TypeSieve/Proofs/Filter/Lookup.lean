import TypeSieve.Filter.Log
import TypeSieve.Proofs.Filter.Effect

/-!
# Lists looked up by class name

A pass reads its configuration only at the names of the classes that it visits. Configurations with
the same list for each of these names, or with none, do the same to a model, whether the list is one
for all classes or stands under each name, and whatever stands under other names. A name that no
class has is passed over, and the pass tells so.
-/

namespace TypeSieve

namespace Environment

/-- Some class of the model has the name, in whichever module and under whichever entity name. -/
def NamesClass (env : Environment) (name : String) : Prop :=
  ∃ module entity c, env.class? module entity = some c ∧ c.name = name

/-- The names of classes are those of the classes of a visit. -/
theorem namesClass_iff (env : Environment) (name : String) :
    env.NamesClass name ↔ ∃ place ∈ env.classes, place.2.name = name := by
  constructor
  · intro h
    obtain ⟨module, entity, c, hclass, hname⟩ := h
    exact ⟨(module, c), (env.mem_classes_iff module c).mpr ⟨entity, hclass⟩, hname⟩
  · intro h
    obtain ⟨⟨module, c⟩, hplace, hname⟩ := h
    obtain ⟨entity, hclass⟩ := (env.mem_classes_iff module c).mp hplace
    exact ⟨module, entity, c, hclass, hname⟩

end Environment

namespace SkipTypes

/-- Two configurations give every class of a model the same list, or both give it none. -/
def AgreeOn (env : Environment) (skips other : SkipTypes) : Prop :=
  ∀ name, env.NamesClass name → skips.patternsFor name = other.patternsFor name

end SkipTypes

namespace LogEvent

/-- The name that an event tells no class to have. -/
def unknownName? : LogEvent → Option String
  | .unknownClass name => some name
  | _ => none

end LogEvent

namespace Filter

section AgreeOn

variable {env : Environment} {skips other : SkipTypes} (h : SkipTypes.AgreeOn env skips other)
  (m : Matcher)
include h

/-- Configurations that agree on the classes of a model leave the same model. -/
theorem apply_eq_of_agreeOn : apply ⟨skips, m⟩ env = apply ⟨other, m⟩ env := by
  rw [apply_eq_mapClasses, apply_eq_mapClasses]
  refine Environment.mapClasses_congr fun module entity c hclass => ?_
  have hlist := h c.name ⟨module, entity, c, hclass, rfl⟩
  simp only [treat, hlist]

/-- Configurations that agree on the classes of a model visit the same classes with the same
lists. -/
theorem visited_eq_of_agreeOn : visited ⟨skips, m⟩ env = visited ⟨other, m⟩ env := by
  refine List.filterMap_congr fun place hplace => ?_
  have hlist := h place.2.name ((env.namesClass_iff _).mpr ⟨place, hplace, rfl⟩)
  simp only [hlist]

/-- Configurations that agree on the classes of a model give the same report. -/
theorem report_eq_of_agreeOn : report ⟨skips, m⟩ env = report ⟨other, m⟩ env := by
  simp only [report, visited_eq_of_agreeOn h m]

end AgreeOn

/-- The names that a pass tells no class to have, in the order of its messages. -/
def unknownNames (f : Filter) (env : Environment) : List String :=
  (f.events env).filterMap LogEvent.unknownName?

/-- What is told about a class is that a pattern could not be evaluated, or a removal. -/
theorem cases_of_mem_classEvents {m : Matcher} {patterns : List TypeExpr} {module : String}
    {c : ClassDescription} {event : LogEvent} (h : event ∈ classEvents m patterns module c) :
    (∃ pattern type, event = .undecided pattern type) ∨ ∃ removal, event = .removing removal := by
  have hundecided : ∀ type, event ∈ undecided m patterns type →
      ∃ pattern type, event = .undecided pattern type := by
    intro type hmem
    obtain ⟨pattern, -, rfl⟩ := List.mem_map.mp hmem
    exact ⟨pattern, type, rfl⟩
  rcases List.mem_append.mp h with htypes | hremovals
  · left
    rcases List.mem_append.mp htypes with hattrs | hmethods
    · obtain ⟨type, -, hmem⟩ := List.mem_flatMap.mp hattrs
      exact hundecided type hmem
    · obtain ⟨entry, -, hmem⟩ := List.mem_flatMap.mp hmethods
      obtain ⟨type, -, hmem⟩ := List.mem_flatMap.mp hmem
      exact hundecided type hmem
  · obtain ⟨removal, -, rfl⟩ := List.mem_map.mp hremovals
    exact .inr ⟨removal, rfl⟩

/-- A pass tells of the names that it passes over, and of no others. -/
theorem unknownNames_eq (f : Filter) (env : Environment) :
    f.unknownNames env = unknownClasses f.skips env := by
  unfold unknownNames events
  split
  · next hnoop =>
    cases hskips : f.skips with
    | unset => rfl
    | global patterns => simp [isNoop, SkipTypes.isUnset, hskips] at hnoop
    | perClass lists => simp [isNoop, SkipTypes.isUnset, hskips] at hnoop
  · have hclasses : ((f.visited env).flatMap fun place =>
        classEvents f.matcher place.2.2 place.1 place.2.1).filterMap LogEvent.unknownName? =
          [] := by
      rw [List.filterMap_eq_nil_iff]
      intro event hmem
      obtain ⟨place, -, hevent⟩ := List.mem_flatMap.mp hmem
      rcases cases_of_mem_classEvents hevent with ⟨pattern, type, rfl⟩ | ⟨removal, rfl⟩
      · rfl
      · rfl
    rw [List.filterMap_append, List.filterMap_append, hclasses,
      List.filterMap_cons, List.filterMap_map]
    simp [LogEvent.unknownName?, Function.comp_def]

/-- A name is passed over exactly if a list stands under it and no class has it. -/
theorem mem_unknownClasses_iff (skips : SkipTypes) (env : Environment) (name : String) :
    name ∈ unknownClasses skips env ↔
      ∃ lists, skips = .perClass lists ∧ name ∈ lists.keys ∧ ¬ env.NamesClass name := by
  cases skips with
  | unset => simp [unknownClasses]
  | global patterns => simp [unknownClasses]
  | perClass lists => simp [unknownClasses, env.namesClass_iff]

/-- The names that are passed over ascend. -/
theorem pairwise_unknownClasses (skips : SkipTypes) (env : Environment) :
    (unknownClasses skips env).Pairwise (· < ·) := by
  cases skips with
  | unset => exact .nil
  | global patterns => exact .nil
  | perClass lists => exact (List.pairwise_map.mpr lists.ascending).filter _

/-- Lists under the names of classes do the same to a model, with the same report, if each name that
some class has finds the same list or finds none. A list for all classes does the same as lists
under names if it stands under each name that some class has. A pass tells, in ascending order, of
exactly those names for which a list is configured although no class in any module has them. -/
theorem pass_reads_names_of_classes (m : Matcher) (env : Environment) :
    (∀ lists others : Dict (List TypeExpr),
      (∀ name, env.NamesClass name → lists.get? name = others.get? name) →
        apply ⟨.perClass lists, m⟩ env = apply ⟨.perClass others, m⟩ env ∧
          report ⟨.perClass lists, m⟩ env = report ⟨.perClass others, m⟩ env) ∧
    (∀ (patterns : List TypeExpr) (lists : Dict (List TypeExpr)),
      (∀ name, env.NamesClass name → lists.get? name = some patterns) →
        apply ⟨.global patterns, m⟩ env = apply ⟨.perClass lists, m⟩ env ∧
          report ⟨.global patterns, m⟩ env = report ⟨.perClass lists, m⟩ env) ∧
    ∀ skips, (unknownNames ⟨skips, m⟩ env).Pairwise (· < ·) ∧
      ∀ name, name ∈ unknownNames ⟨skips, m⟩ env ↔
        ∃ lists, skips = .perClass lists ∧ name ∈ lists.keys ∧ ¬ env.NamesClass name := by
  refine ⟨fun lists others hnames => ?_, fun patterns lists hnames => ?_, fun skips => ?_⟩
  · have hagree : SkipTypes.AgreeOn env (.perClass lists) (.perClass others) := hnames
    exact ⟨apply_eq_of_agreeOn hagree m, report_eq_of_agreeOn hagree m⟩
  · have hagree : SkipTypes.AgreeOn env (.global patterns) (.perClass lists) := fun name hname =>
      (hnames name hname).symm
    exact ⟨apply_eq_of_agreeOn hagree m, report_eq_of_agreeOn hagree m⟩
  · rw [unknownNames_eq]
    exact ⟨pairwise_unknownClasses skips env, mem_unknownClasses_iff skips env⟩

/-- Two modules with classes of one name, one of them under another entity name. -/
def sharedNameModel : Environment :=
  (Environment.empty.insertClass "geometry"
    ((ClassDescription.ofName "Shape").withAttr "x" (.leaf "float64"))).insert "physics" "Body"
    (.ofClass ((ClassDescription.ofName "Shape").withAttr "mass" (.leaf "float64")))

/-- A list for the classes of the model, and one for the entity name that no class has as its
name. -/
def shapeAndBody : Dict (List TypeExpr) :=
  .ofList [("Shape", [.leaf "float64"]), ("Body", [.leaf "int32"]), ("Area", [])]

/-- Both classes lose their attribute, and the two names without a class are told in order. -/
theorem pass_reads_names_of_classes_shared :
    (∀ name, sharedNameModel.NamesClass name → shapeAndBody.get? name = some [.leaf "float64"]) ∧
      (∀ name, sharedNameModel.NamesClass name →
        shapeAndBody.get? name = (Dict.ofList [("Shape", [TypeExpr.leaf "float64"])]).get? name) ∧
      report ⟨.perClass shapeAndBody, Matcher.exact⟩ sharedNameModel =
        report ⟨.perClass (.ofList [("Shape", [.leaf "float64"])]), Matcher.exact⟩ sharedNameModel ∧
      report ⟨.global [.leaf "float64"], Matcher.exact⟩ sharedNameModel =
        report ⟨.perClass shapeAndBody, Matcher.exact⟩ sharedNameModel ∧
      (report ⟨.perClass shapeAndBody, Matcher.exact⟩ sharedNameModel).size = 2 ∧
      unknownNames ⟨.perClass shapeAndBody, Matcher.exact⟩ sharedNameModel = ["Area", "Body"] := by
  have hlist : ∀ name, sharedNameModel.NamesClass name →
      shapeAndBody.get? name = some [.leaf "float64"] ∧
        (Dict.ofList [("Shape", [TypeExpr.leaf "float64"])]).get? name =
          some [.leaf "float64"] := by
    intro name hname
    have hplaces : ∀ place ∈ sharedNameModel.classes,
        shapeAndBody.get? place.2.name = some [.leaf "float64"] ∧
          (Dict.ofList [("Shape", [TypeExpr.leaf "float64"])]).get? place.2.name =
            some [.leaf "float64"] := by decide +kernel
    obtain ⟨place, hplace, rfl⟩ := (sharedNameModel.namesClass_iff name).mp hname
    exact hplaces place hplace
  have hglobal : ∀ name, sharedNameModel.NamesClass name →
      shapeAndBody.get? name = some [.leaf "float64"] := fun name hname => (hlist name hname).1
  have hother : ∀ name, sharedNameModel.NamesClass name →
      shapeAndBody.get? name = (Dict.ofList [("Shape", [TypeExpr.leaf "float64"])]).get? name :=
    fun name hname => (hlist name hname).1.trans (hlist name hname).2.symm
  obtain ⟨hsame, hall, -⟩ := pass_reads_names_of_classes Matcher.exact sharedNameModel
  exact ⟨hglobal, hother, (hsame _ _ hother).2, (hall _ _ hglobal).2,
    by decide +kernel, by decide +kernel⟩

end Filter

end TypeSieve
