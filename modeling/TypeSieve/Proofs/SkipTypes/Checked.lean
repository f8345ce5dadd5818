import TypeSieve.Proofs.Dict
import TypeSieve.Proofs.Filter.Spared
import TypeSieve.Proofs.Outcome
import TypeSieve.TypeExpr.Parser

/-!
# Patterns that were checked

A pattern is refused if an empty tuple occurs in it, whether it was configured as a value or given
in tuple notation. So no list of a configuration that was read, and no pattern that was parsed,
holds an empty tuple.
-/

namespace TypeSieve

namespace TypeExpr

/-- A type that was read is a pattern unless it has an empty tuple. -/
theorem parsePattern_of_parse {text : String} {e : TypeExpr} (h : parse text = .ok e) :
    parsePattern text =
      if e.hasEmptyTuple then .error (.emptyTuple (Text.trim text)) else .ok e := by
  rw [parsePattern, h]
  rfl

/-- A pattern is a type without empty tuples. -/
theorem parsePattern_eq_ok_iff (text : String) (e : TypeExpr) :
    parsePattern text = .ok e ↔ parse text = .ok e ∧ e.hasEmptyTuple = false := by
  constructor
  · intro h
    obtain ⟨found, hparse, -⟩ := bind_eq_ok_iff.mp h
    rw [parsePattern_of_parse hparse] at h
    split at h
    · cases h
    · next hempty =>
      obtain rfl := Except.ok.inj h
      exact ⟨hparse, Bool.eq_false_iff.mpr hempty⟩
  · intro h
    rw [parsePattern_of_parse h.1, h.2]
    rfl

end TypeExpr

namespace SkipTypes

/-- The patterns in all lists. -/
def patterns : SkipTypes → List TypeExpr
  | .unset => []
  | .global patterns => patterns
  | .perClass lists => lists.values.flatten

/-- A pattern of a list that applies to some class is one of the patterns. -/
theorem Applies.mem_patterns {skips : SkipTypes} {className : String} {list : List TypeExpr}
    (h : skips.Applies className list) {pattern : TypeExpr} (hpattern : pattern ∈ list) :
    pattern ∈ skips.patterns := by
  cases h with
  | global => exact hpattern
  | perClass hlist =>
    have hentry := (Dict.get?_eq_some_iff _ _ _).mp hlist
    exact List.mem_flatten.mpr ⟨list, List.mem_map.mpr ⟨(className, list), hentry, rfl⟩, hpattern⟩

/-- Configurations whose patterns were checked: they were read from a value, or each of their
patterns was parsed. -/
inductive Checked : SkipTypes → Prop
  | value {value : Json} {skips : SkipTypes} (hread : ofJson value = .ok skips) : Checked skips
  | parsed {skips : SkipTypes}
    (hparsed : ∀ pattern ∈ skips.patterns, ∃ text, TypeExpr.parsePattern text = .ok pattern) :
    Checked skips

/-- The patterns of a list that was read hold no empty tuple. -/
theorem hasEmptyTuple_of_patternsFrom {className : Option String} {index : Nat} {items : List Json}
    {list : List TypeExpr} (h : patternsFrom className index items = .ok list) :
    ∀ pattern ∈ list, pattern.hasEmptyTuple = false := by
  induction items generalizing index list with
  | nil =>
    obtain rfl := Except.ok.inj h
    exact fun pattern hmem => nomatch hmem
  | cons item rest ih =>
    rw [patternsFrom] at h
    split at h
    · cases h
    · next hitem =>
      obtain ⟨others, hothers, rfl⟩ := map_eq_ok_iff.mp h
      exact List.forall_mem_cons.mpr ⟨Bool.eq_false_iff.mpr hitem, ih hothers⟩

/-- The patterns of the lists of classes that were read hold no empty tuple. -/
theorem hasEmptyTuple_of_listsOf {members : List (String × Json)}
    {lists : List (String × List TypeExpr)} (h : listsOf members = .ok lists) :
    ∀ entry ∈ lists, ∀ pattern ∈ entry.2, pattern.hasEmptyTuple = false := by
  induction members generalizing lists with
  | nil =>
    obtain rfl := Except.ok.inj h
    exact fun entry hmem => nomatch hmem
  | cons member rest ih =>
    obtain ⟨name, value⟩ := member
    unfold listsOf at h
    split at h
    · cases ‹_ :: _ = []›
    · next name' items more heq =>
      obtain ⟨hhead, rfl⟩ := List.cons.inj heq
      obtain ⟨list, hlist, h⟩ := bind_eq_ok_iff.mp h
      obtain ⟨others, hothers, h⟩ := bind_eq_ok_iff.mp h
      obtain rfl := Except.ok.inj h
      exact List.forall_mem_cons.mpr ⟨hasEmptyTuple_of_patternsFrom hlist, ih hothers⟩
    · cases h

/-- Leaving out an empty list or mapping adds no pattern. -/
theorem mem_of_mem_patterns_normalize {skips : SkipTypes} {pattern : TypeExpr}
    (h : pattern ∈ skips.normalize.patterns) : pattern ∈ skips.patterns := by
  unfold normalize at h
  split at h
  · exact h
  · next lists =>
    split at h
    · cases h
    · exact h
  · exact h

/-- Checked patterns hold no empty tuple. -/
theorem Checked.hasEmptyTuple {skips : SkipTypes} (h : skips.Checked) {pattern : TypeExpr}
    (hpattern : pattern ∈ skips.patterns) : pattern.hasEmptyTuple = false := by
  cases h with
  | @value value _ hread =>
    unfold ofJson at hread
    split at hread
    · obtain rfl := Except.ok.inj hread
      cases hpattern
    · obtain ⟨list, hlist, rfl⟩ := map_eq_ok_iff.mp hread
      exact hasEmptyTuple_of_patternsFrom hlist pattern (mem_of_mem_patterns_normalize hpattern)
    · obtain ⟨lists, hlists, rfl⟩ := map_eq_ok_iff.mp hread
      obtain ⟨list, hlist, hmem⟩ := List.mem_flatten.mp (mem_of_mem_patterns_normalize hpattern)
      obtain ⟨entry, hentry, rfl⟩ := List.mem_map.mp hlist
      exact hasEmptyTuple_of_listsOf hlists entry (mem_of_mem_canonicalEntries hentry) pattern hmem
    · cases hread
  | parsed hparsed =>
    obtain ⟨text, htext⟩ := hparsed pattern hpattern
    exact ((TypeExpr.parsePattern_eq_ok_iff ..).mp htext).2

end SkipTypes

end TypeSieve
