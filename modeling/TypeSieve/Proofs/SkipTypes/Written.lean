import TypeSieve.Proofs.Dict
import TypeSieve.Proofs.Outcome
import TypeSieve.SkipTypes

/-!
# Configurations written as values

A list of patterns is read if none of them has an empty tuple, and the first that has one is
refused. So a configuration of patterns without empty tuples is read from the value that it is
written as, if each of its patterns is.
-/

namespace TypeSieve.SkipTypes

/-- A list of patterns without empty tuples is read. -/
theorem patternsFrom_eq_ok {items : List Json}
    (h : ∀ item ∈ items, (TypeExpr.ofJson item).hasEmptyTuple = false) (className : Option String)
    (index : Nat) : patternsFrom className index items = .ok (items.map TypeExpr.ofJson) := by
  induction items generalizing index with
  | nil => rfl
  | cons item rest ih =>
    obtain ⟨hitem, hrest⟩ := List.forall_mem_cons.mp h
    rw [patternsFrom, hitem, ih hrest]
    rfl

/-- An only pattern is refused exactly if it has an empty tuple. -/
theorem ofJson_singleton_eq_emptyTuple_iff (item : Json) :
    (∃ className index pattern,
      ofJson (.array [item]) = .error (.emptyTuple className index pattern)) ↔
      (TypeExpr.ofJson item).hasEmptyTuple = true := by
  cases hempty : (TypeExpr.ofJson item).hasEmptyTuple with
  | true => simp [ofJson, patternsFrom, hempty, Except.map]
  | false => simp [ofJson, patternsFrom, hempty, Except.map]

/-- A pattern that may be written and read: it has no empty tuple and is read back. -/
structure Writable (pattern : TypeExpr) : Prop where
  hasEmptyTuple : pattern.hasEmptyTuple = false
  read : TypeExpr.ofJson pattern.toJson = pattern

/-- Writable patterns are read from the list of them. -/
theorem patternsFrom_map_toJson {patterns : List TypeExpr}
    (h : ∀ pattern ∈ patterns, Writable pattern) (className : Option String) (index : Nat) :
    patternsFrom className index (patterns.map TypeExpr.toJson) = .ok patterns := by
  have hread : (patterns.map TypeExpr.toJson).map TypeExpr.ofJson = patterns := by
    rw [List.map_map]
    exact (List.map_congr_left fun pattern hpattern => (h pattern hpattern).read).trans
      (List.map_id' patterns)
  rw [patternsFrom_eq_ok, hread]
  rw [List.forall_mem_map]
  intro pattern hpattern
  rw [(h pattern hpattern).read]
  exact (h pattern hpattern).hasEmptyTuple

/-- Lists of writable patterns are read from the arrays of them. -/
theorem listsOf_map_toJson {lists : List (String × List TypeExpr)}
    (h : ∀ entry ∈ lists, ∀ pattern ∈ entry.2, Writable pattern) :
    listsOf (lists.map fun entry => (entry.1, .array (entry.2.map TypeExpr.toJson))) =
      .ok lists := by
  induction lists with
  | nil => rfl
  | cons entry rest ih =>
    obtain ⟨hentry, hrest⟩ := List.forall_mem_cons.mp h
    rw [List.map_cons, listsOf, patternsFrom_map_toJson hentry, ih hrest]
    rfl

/-- A list of writable patterns for all classes is read from the array of them. -/
theorem ofJson_array_map_toJson {patterns : List TypeExpr} (hne : patterns ≠ [])
    (h : ∀ pattern ∈ patterns, Writable pattern) :
    ofJson (.array (patterns.map TypeExpr.toJson)) = .ok (.global patterns) := by
  rw [ofJson, patternsFrom_map_toJson h]
  cases patterns with
  | nil => exact absurd rfl hne
  | cons => rfl

/-- Lists of writable patterns for single classes are read from the object of their arrays. -/
theorem ofJson_ofDict_map_toJson {lists : Dict (List TypeExpr)} (hne : lists.isEmpty = false)
    (h : ∀ name patterns, lists.get? name = some patterns →
      ∀ pattern ∈ patterns, Writable pattern) :
    ofJson (.ofDict (lists.map fun _ patterns => .array (patterns.map TypeExpr.toJson))) =
      .ok (.perClass lists) := by
  have hentries : ∀ entry ∈ lists.entries, ∀ pattern ∈ entry.2, Writable pattern :=
    fun entry hentry => h entry.1 entry.2 ((lists.get?_eq_some_iff _ _).mpr hentry)
  change (listsOf (lists.entries.map _)).map _ = _
  rw [listsOf_map_toJson hentries, Except.map, lists.ofList_entries,
    normalize, if_neg (by simp [hne])]

end TypeSieve.SkipTypes
