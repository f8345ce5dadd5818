import TypeSieve.Proofs.Filter.Spared
import TypeSieve.Proofs.Model.Members

/-!
# Reasons for removals

The reason to remove a member is described without a search: an attribute is removed for its type, a
method for its return type if any pattern matches it, else for the first of its parameters that a
pattern matches, and the pattern given is always the first of the list that matches there. Every
search ends with such a reason.
-/

namespace TypeSieve

namespace Matcher

/-- A pattern matches anywhere in a type, and none before it in the list does. -/
def FirstMatch (m : Matcher) (patterns : List TypeExpr) (type pattern : TypeExpr) : Prop :=
  ∃ earlier later, patterns = earlier ++ pattern :: later ∧ m.anywhere pattern type = true ∧
    m.Spares earlier type

/-- The search for a pattern finds the first one that matches. -/
theorem first?_eq_some_iff (m : Matcher) (patterns : List TypeExpr) (type pattern : TypeExpr) :
    m.first? patterns type = some pattern ↔ m.FirstMatch patterns type pattern := by
  rw [first?, List.find?_eq_some_iff_append]
  simp only [FirstMatch, Spares, Bool.not_eq_true']
  constructor
  · intro h
    obtain ⟨hmatch, earlier, later, hsplit, hearlier⟩ := h
    exact ⟨earlier, later, hsplit, hmatch, hearlier⟩
  · intro h
    obtain ⟨earlier, later, hsplit, hmatch, hearlier⟩ := h
    exact ⟨hmatch, earlier, later, hsplit, hearlier⟩

/-- Why a member is removed. -/
inductive Reason (m : Matcher) (patterns : List TypeExpr) : ClassMember → Finding → Prop
  | attribute {name : String} {type pattern : TypeExpr}
    (hfirst : m.FirstMatch patterns type pattern) :
    Reason m patterns (.attr name type) ⟨.attribute, pattern, type⟩
  | returns {key : Signature} {type pattern : TypeExpr}
    (hfirst : m.FirstMatch patterns type pattern) :
    Reason m patterns (.method (key, some type)) ⟨.returns, pattern, type⟩
  | param {key : Signature} {returns : Option TypeExpr} {index : Nat} {p : Param}
    {pattern : TypeExpr} (hreturns : ∀ type ∈ returns, m.Spares patterns type)
    (hparam : key.params[index]? = some p)
    (hearlier : ∀ q ∈ key.params.take index, m.Spares patterns q.type)
    (hfirst : m.FirstMatch patterns p.type pattern) :
    Reason m patterns (.method (key, returns)) ⟨.param index p.name, pattern, p.type⟩

end Matcher

namespace ClassMember

/-- A member as reports name it. -/
def shown : ClassMember → Member
  | .attr name _ => .attribute name
  | .method entry => .method entry.1.render

/-- The search for the reason to remove a member. -/
def finding (m : Matcher) (patterns : List TypeExpr) : ClassMember → Option Finding
  | .attr _ type => Filter.attributeFinding m patterns type
  | .method entry => Filter.methodFinding m patterns entry

end ClassMember

namespace Filter

/-- What is found among parameters is the first of them with a type that a pattern matches. -/
theorem paramFinding_eq_some {m : Matcher} {patterns : List TypeExpr} {start : Nat}
    {params : List Param} {found : Finding}
    (h : paramFinding m patterns start params = some found) :
    ∃ offset p pattern, found = ⟨.param (start + offset) p.name, pattern, p.type⟩ ∧
      params[offset]? = some p ∧ (∀ q ∈ params.take offset, m.Spares patterns q.type) ∧
      m.FirstMatch patterns p.type pattern := by
  induction params generalizing start with
  | nil => simp [paramFinding] at h
  | cons p rest ih =>
    cases hfirst : m.first? patterns p.type with
    | some pattern =>
      simp only [paramFinding, hfirst, Option.some.injEq] at h
      exact ⟨0, p, pattern, h.symm, rfl, by simp, (m.first?_eq_some_iff ..).mp hfirst⟩
    | none =>
      simp only [paramFinding, hfirst] at h
      obtain ⟨offset, q, pattern, hfound, hparam, hearlier, hmatch⟩ := ih h
      refine ⟨offset + 1, q, pattern, ?_, by simpa using hparam, ?_, hmatch⟩
      · rw [hfound, Nat.add_assoc, Nat.add_comm 1 offset]
      · rw [List.take_succ_cons, List.forall_mem_cons]
        exact ⟨(m.first?_eq_none_iff ..).mp hfirst, hearlier⟩

/-- What is found for a return type is the first pattern that matches it. -/
theorem returnFinding_eq_some {m : Matcher} {patterns : List TypeExpr} {returns : Option TypeExpr}
    {found : Finding} (h : returnFinding m patterns returns = some found) :
    ∃ type pattern, returns = some type ∧ found = ⟨.returns, pattern, type⟩ ∧
      m.FirstMatch patterns type pattern := by
  obtain ⟨type, rfl, hfound⟩ := Option.bind_eq_some_iff.mp h
  obtain ⟨pattern, hfirst, rfl⟩ := Option.map_eq_some_iff.mp hfound
  exact ⟨type, pattern, rfl, rfl, (m.first?_eq_some_iff ..).mp hfirst⟩

/-- What is found for a member is a reason to remove it. -/
theorem reason_of_finding {m : Matcher} {patterns : List TypeExpr} {member : ClassMember}
    {found : Finding} (h : member.finding m patterns = some found) :
    m.Reason patterns member found := by
  cases member with
  | attr name type =>
    obtain ⟨pattern, hfirst, rfl⟩ := Option.map_eq_some_iff.mp h
    exact .attribute ((m.first?_eq_some_iff ..).mp hfirst)
  | method entry =>
    obtain ⟨key, returns⟩ := entry
    rcases Option.or_eq_some_iff.mp h with hreturns | ⟨hnone, hparams⟩
    · obtain ⟨type, pattern, rfl, rfl, hfirst⟩ := returnFinding_eq_some hreturns
      exact .returns hfirst
    · obtain ⟨offset, p, pattern, rfl, hparam, hearlier, hfirst⟩ := paramFinding_eq_some hparams
      rw [Nat.zero_add]
      exact .param ((returnFinding_eq_none_iff ..).mp hnone) hparam hearlier hfirst

end Filter

end TypeSieve
