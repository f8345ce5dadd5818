import TypeSieve.Proofs.Filter.Account
import Mathlib.Algebra.GroupWithZero.Nat

/-!
# Passes one after the other

Whether a pass keeps a member depends on the name of its class and on the member itself, and a pass
changes neither. A sequence of passes therefore keeps what each of its filters keeps: the order of
the filters and their repetitions do not matter, and what a sequence removes in all is the
difference between the first model and the last. A filter for two lists of patterns does what the
filters for the single lists do together.
-/

namespace TypeSieve

namespace ClassDescription

/-- The class with those of its members that pass a test. -/
def keep (c : ClassDescription) (test : ClassMember → Bool) : ClassDescription :=
  { c with
    attrs := c.attrs.filter fun name type => test (.attr name type)
    methods := c.methods.filter fun entry => test (.method entry) }

/-- A class whose members all pass a test keeps them. -/
theorem keep_eq_self {c : ClassDescription} {test : ClassMember → Bool}
    (h : ∀ member ∈ c.members, test member = true) : c.keep test = c := by
  obtain ⟨hattrs, hmethods⟩ := List.forall_mem_append.mp h
  apply ClassDescription.ext
  · rfl
  · exact Dict.ext (List.filter_eq_self.mpr (List.forall_mem_map.mp hattrs))
  · exact Methods.ext (List.filter_eq_self.mpr (List.forall_mem_map.mp hmethods))
  · rfl

/-- Keeping every member keeps the class. -/
theorem keep_true (c : ClassDescription) : (c.keep fun _ => true) = c := keep_eq_self fun _ _ => rfl

/-- Two tests one after the other are one. -/
theorem keep_keep (c : ClassDescription) (s t : ClassMember → Bool) :
    (c.keep s).keep t = c.keep fun member => s member && t member := by
  have hfilter : ∀ {α : Type} (l : List α) (p q : α → Bool),
      (l.filter p).filter q = l.filter fun a => p a && q a := by
    intro α l p q
    rw [List.filter_filter]
    exact List.filter_congr fun a _ => Bool.and_comm _ _
  apply ClassDescription.ext
  · rfl
  · exact Dict.ext (hfilter c.attrs.entries _ _)
  · exact Methods.ext (hfilter c.methods.entries _ _)
  · rfl

end ClassDescription

namespace Filter

/-- A pass keeps a member of the classes of a name. -/
def keeps (f : Filter) (className : String) (member : ClassMember) : Bool :=
  ((f.skips.patternsFor className).bind fun patterns => member.finding f.matcher patterns).isNone

/-- A pass leaves of a class the members that it keeps. -/
theorem treat_eq_keep (f : Filter) (c : ClassDescription) :
    f.treat c = c.keep (f.keeps c.name) := by
  unfold keeps treat
  cases f.skips.patternsFor c.name with
  | none => exact c.keep_true.symm
  | some patterns => rfl

/-- The model after passes one after the other. -/
def applyAll : List Filter → Environment → Environment
  | [], env => env
  | f :: rest, env => applyAll rest (f.apply env)

/-- The reports of passes one after the other. -/
def reports : List Filter → Environment → List Report
  | [], _ => []
  | f :: rest, env => f.report env :: reports rest (f.apply env)

/-- The attributes that several passes removed. -/
def attributesRemoved (rs : List Report) : Nat := (rs.map Report.attributesRemoved).sum

/-- The methods that several passes removed. -/
def methodsRemoved (rs : List Report) : Nat := (rs.map Report.methodsRemoved).sum

/-- Passes leave of each class the members that all of their filters keep. -/
theorem applyAll_eq_mapClasses (fs : List Filter) (env : Environment) :
    applyAll fs env = env.mapClasses fun _ c => c.keep fun member =>
      fs.all (·.keeps c.name member) := by
  induction fs generalizing env with
  | nil =>
    have hkeep : (fun (_ : String) (c : ClassDescription) => c.keep fun _ => true) = fun _ c => c :=
      funext fun _ => funext ClassDescription.keep_true
    exact (hkeep ▸ env.mapClasses_id).symm
  | cons f rest ih =>
    rw [applyAll, ih, apply_eq_mapClasses, Environment.mapClasses_mapClasses]
    congr 1
    funext _ c
    -- The pass keeps the name of the class, so the later filters look up the same lists.
    rw [treat_eq_keep]
    exact c.keep_keep _ _

/-- Filters that keep the same members leave the same model. -/
theorem applyAll_congr {fs gs : List Filter}
    (h : ∀ className member, fs.all (·.keeps className member) = gs.all (·.keeps className member))
    (env : Environment) : applyAll fs env = applyAll gs env := by
  simp only [applyAll_eq_mapClasses, h]

/-- The members of a kind that a pass removes are those by which the model shrinks. -/
theorem countP_removals_add (f : Filter) (env : Environment) (kind : Member → Bool) :
    ((f.report env).removals.countP fun removal => kind removal.member) +
        (f.apply env).members.countP (fun p => kind p.member.shown) =
      env.members.countP fun p => kind p.member.shown := by
  rw [removals_eq_filterMap, members_apply]
  induction env.members with
  | nil => rfl
  | cons p rest ih =>
    rw [List.countP_cons, ← ih]
    cases hremoval : f.removalOf p with
    | none => simp [hremoval, List.countP_cons, Nat.add_assoc]
    | some removal =>
      rw [← (accounts_of_removalOf hremoval).member]
      simp [hremoval, List.countP_cons, Nat.add_right_comm]

/-- The members of a kind that passes remove in all are those by which the model shrinks. -/
theorem sum_countP_removals_add (fs : List Filter) (env : Environment) (kind : Member → Bool) :
    ((reports fs env).map fun r => r.removals.countP fun removal => kind removal.member).sum +
        (applyAll fs env).members.countP (fun p => kind p.member.shown) =
      env.members.countP fun p => kind p.member.shown := by
  induction fs generalizing env with
  | nil => simp [reports, applyAll]
  | cons f rest ih =>
    rw [reports, applyAll, List.map_cons, List.sum_cons, Nat.add_assoc, ih, countP_removals_add]

/-- Passes that leave the same model have removed as many attributes and as many methods. -/
theorem removed_eq_of_applyAll_eq {fs gs : List Filter} {env : Environment}
    (h : applyAll fs env = applyAll gs env) :
    attributesRemoved (reports fs env) = attributesRemoved (reports gs env) ∧
      methodsRemoved (reports fs env) = methodsRemoved (reports gs env) := by
  have hkind : ∀ kind : Member → Bool,
      ((reports fs env).map fun r => r.removals.countP fun removal => kind removal.member).sum =
        ((reports gs env).map fun r => r.removals.countP fun removal =>
          kind removal.member).sum := by
    intro kind
    have hfs := sum_countP_removals_add fs env kind
    have hgs := sum_countP_removals_add gs env kind
    rw [h] at hfs
    omega
  exact ⟨hkind Member.isAttribute, hkind fun member => !member.isAttribute⟩

/-- A second pass removes nothing and visits as many classes. -/
theorem report_apply (f : Filter) (env : Environment) :
    f.report (f.apply env) = ⟨(f.report env).classesVisited, []⟩ := by
  have hremovals : (f.report (f.apply env)).removals = [] := by
    rw [removals_eq_nil_iff, members_apply]
    intro p hp
    exact Option.isNone_iff_eq_none.mp (List.mem_filter.mp hp).2
  have hvisited : (f.report (f.apply env)).classesVisited = (f.report env).classesVisited := by
    have hname : ∀ c, (f.treat c).name = c.name := fun c => (f.classEffect_treat c).name
    rw [classesVisited_eq_countP, classesVisited_eq_countP, apply_eq_mapClasses,
      Environment.classes_mapClasses, List.countP_map]
    simp only [Function.comp_def, hname]
  rw [← hremovals, ← hvisited]

/-- A second pass changes nothing. -/
theorem apply_apply (f : Filter) (env : Environment) : f.apply (f.apply env) = f.apply env := by
  have htwice : applyAll [f, f] env = applyAll [f] env := applyAll_congr (by simp) env
  exact htwice

/-- A list of patterns finds nothing in a member exactly when neither of its two parts does. -/
theorem isNone_finding_append (m : Matcher) (ps qs : List TypeExpr) (member : ClassMember) :
    (member.finding m (ps ++ qs)).isNone =
      ((member.finding m ps).isNone && (member.finding m qs).isNone) := by
  have hspares : ∀ type, m.Spares (ps ++ qs) type ↔ m.Spares ps type ∧ m.Spares qs type :=
    fun type => List.forall_mem_append
  rw [Bool.eq_iff_iff, Bool.and_eq_true]
  simp only [Option.isNone_iff_eq_none]
  cases member with
  | attr name type =>
    simp only [ClassMember.finding, attributeFinding_eq_none_iff]
    exact hspares type
  | method entry =>
    simp only [ClassMember.finding, methodFinding_eq_none_iff, Matcher.SparesMethod, hspares]
    constructor
    · intro h
      exact ⟨⟨fun type htype => (h.1 type htype).1, fun p hp => (h.2 p hp).1⟩,
        fun type htype => (h.1 type htype).2, fun p hp => (h.2 p hp).2⟩
    · intro h
      exact ⟨fun type htype => ⟨h.1.1 type htype, h.2.1 type htype⟩,
        fun p hp => ⟨h.1.2 p hp, h.2.2 p hp⟩⟩

/-- The model after a sequence of passes and the numbers of attributes and methods that they removed
in all depend only on which filters occur in the sequence. In particular a second pass of a filter
removes nothing and changes nothing. A pass for two lists of patterns, one behind the other, is
worth the two passes for the single lists. -/
theorem passes_depend_on_filters (env : Environment) :
    (∀ fs gs : List Filter, (∀ f, f ∈ fs ↔ f ∈ gs) →
      applyAll fs env = applyAll gs env ∧
        attributesRemoved (reports fs env) = attributesRemoved (reports gs env) ∧
        methodsRemoved (reports fs env) = methodsRemoved (reports gs env)) ∧
    (∀ f : Filter, f.apply (f.apply env) = f.apply env ∧
      (f.report (f.apply env)).removals = []) ∧
    ∀ (m : Matcher) (ps qs : List TypeExpr),
      Filter.apply ⟨.global (ps ++ qs), m⟩ env = applyAll [⟨.global ps, m⟩, ⟨.global qs, m⟩] env ∧
        (Filter.report ⟨.global (ps ++ qs), m⟩ env).attributesRemoved =
          attributesRemoved (reports [⟨.global ps, m⟩, ⟨.global qs, m⟩] env) ∧
        (Filter.report ⟨.global (ps ++ qs), m⟩ env).methodsRemoved =
          methodsRemoved (reports [⟨.global ps, m⟩, ⟨.global qs, m⟩] env) := by
  refine ⟨fun fs gs hmem => ?_, fun f => ⟨f.apply_apply env, by rw [report_apply]⟩,
    fun m ps qs => ?_⟩
  · have hall : ∀ className member,
        fs.all (·.keeps className member) = gs.all (·.keeps className member) := by
      intro className member
      rw [Bool.eq_iff_iff, List.all_eq_true, List.all_eq_true]
      exact forall_congr' fun f => imp_congr_left (hmem f)
    have hmodel := applyAll_congr hall env
    exact ⟨hmodel, removed_eq_of_applyAll_eq hmodel⟩
  · have hmodel : applyAll [⟨.global (ps ++ qs), m⟩] env =
        applyAll [⟨.global ps, m⟩, ⟨.global qs, m⟩] env := by
      refine applyAll_congr (fun className member => ?_) env
      have happend := isNone_finding_append m ps qs member
      simpa [keeps, SkipTypes.patternsFor] using happend
    obtain ⟨hattributes, hmethods⟩ := removed_eq_of_applyAll_eq hmodel
    exact ⟨hmodel, by simpa [reports, attributesRemoved] using hattributes,
      by simpa [reports, methodsRemoved] using hmethods⟩

/-- The filter that takes away what has one name in its types. -/
def without (name : String) : Filter := ofSkips (.global [.leaf name])

/-- A class with an attribute and a method, the method with two names in its types. -/
def mixedModel : Environment :=
  Environment.empty.insertClass "geometry" (((ClassDescription.ofName "Shape").withAttr "x"
    (.leaf "float64")).withMethod ⟨"scale", [⟨"by", .leaf "int32", none⟩]⟩ (some (.leaf "float64")))

/-- The method goes in the first pass whichever filter comes first, and it is counted once. -/
theorem passes_depend_on_filters_mixed :
    (∀ f, f ∈ [without "int32", without "float64", without "int32"] ↔
      f ∈ [without "float64", without "int32"]) ∧
    applyAll [without "int32", without "float64", without "int32"] mixedModel =
      applyAll [without "float64", without "int32"] mixedModel ∧
    methodsRemoved (reports [without "int32", without "float64", without "int32"] mixedModel) =
      methodsRemoved (reports [without "float64", without "int32"] mixedModel) ∧
    methodsRemoved (reports [without "float64", without "int32"] mixedModel) = 1 := by
  have hmem : ∀ f, f ∈ [without "int32", without "float64", without "int32"] ↔
      f ∈ [without "float64", without "int32"] := by
    intro f
    simp only [List.mem_cons, List.not_mem_nil, or_false]
    tauto
  obtain ⟨hmodel, -, hmethods⟩ := (passes_depend_on_filters mixedModel).1 _ _ hmem
  exact ⟨hmem, hmodel, hmethods, by decide +kernel⟩

end Filter

end TypeSieve
