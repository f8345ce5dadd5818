import TypeSieve.Config.Sourced
import Mathlib.Data.List.Forall2

/-!
# Merging configured values

Values that are given one after the other are merged from the left, and the last of those from the
highest source stands in the end. A merge is therefore associative: neighbours may be merged first
in groups of any size. It is not commutative, since of two values from one source the later one
stands.
-/

namespace TypeSieve

/-- Sources of the same precedence are the same. -/
theorem Source.eq_of_rank_eq {a b : Source} (h : a.rank = b.rank) : a = b := by
  revert h
  cases a <;> cases b <;> decide

namespace Sourced

variable {α : Type}

/-- A later value from a source that is not lower stands. -/
theorem merge_of_rank_le {earlier later : Sourced α} (h : earlier.source.rank ≤ later.source.rank) :
    earlier.merge later = later := if_pos h

/-- An earlier value from a higher source stands. -/
theorem merge_of_rank_lt {earlier later : Sourced α} (h : later.source.rank < earlier.source.rank) :
    earlier.merge later = earlier := if_neg (Nat.not_le.mpr h)

/-- Of three values it does not matter which neighbours are merged first. -/
theorem merge_assoc (a b c : Sourced α) : (a.merge b).merge c = a.merge (b.merge c) := by
  rcases Nat.lt_or_ge b.source.rank a.source.rank with hab | hab
  · rw [merge_of_rank_lt hab]
    rcases Nat.lt_or_ge c.source.rank b.source.rank with hbc | hbc
    · rw [merge_of_rank_lt hbc, merge_of_rank_lt hab, merge_of_rank_lt (Nat.lt_trans hbc hab)]
    · rw [merge_of_rank_le hbc]
  · rw [merge_of_rank_le hab]
    rcases Nat.lt_or_ge c.source.rank b.source.rank with hbc | hbc
    · rw [merge_of_rank_lt hbc, merge_of_rank_le hab]
    · rw [merge_of_rank_le hbc, merge_of_rank_le (Nat.le_trans hab hbc)]

instance : Std.Associative (@merge α) := ⟨merge_assoc⟩

/-- A value stands among several if it is the last of those from the highest source. -/
structure Stands (values : List (Sourced α)) (v : Sourced α) : Prop where
  highest : ∀ other ∈ values, other.source.rank ≤ v.source.rank
  last : ∃ earlier later, values = earlier ++ v :: later ∧ ∀ other ∈ later, other.source ≠ v.source

/-- A value alone stands. -/
theorem Stands.alone (v : Sourced α) : Stands [v] v :=
  ⟨fun _ hother => List.mem_singleton.mp hother ▸ Nat.le_refl _, [], [], rfl,
    fun _ hother => nomatch hother⟩

/-- When one more value is given, its merge with the one that stood stands. -/
theorem Stands.merge {values : List (Sourced α)} {v : Sourced α} (h : Stands values v)
    (next : Sourced α) : Stands (values ++ [next]) (v.merge next) := by
  rcases Nat.lt_or_ge next.source.rank v.source.rank with hlower | hhigher
  · rw [merge_of_rank_lt hlower]
    obtain ⟨earlier, later, rfl, hlater⟩ := h.last
    constructor
    · intro other hother
      rcases List.mem_append.mp hother with hother | hother
      · exact h.highest other hother
      · exact List.mem_singleton.mp hother ▸ Nat.le_of_lt hlower
    · refine ⟨earlier, later ++ [next], by simp, fun other hother => ?_⟩
      rcases List.mem_append.mp hother with hother | hother
      · exact hlater other hother
      · rintro heq
        rw [← heq, List.mem_singleton.mp hother] at hlower
        exact Nat.lt_irrefl _ hlower
  · rw [merge_of_rank_le hhigher]
    constructor
    · intro other hother
      rcases List.mem_append.mp hother with hother | hother
      · exact Nat.le_trans (h.highest other hother) hhigher
      · exact List.mem_singleton.mp hother ▸ Nat.le_refl _
    · exact ⟨values, [], rfl, fun _ hother => nomatch hother⟩

/-- When more values are given, merging them one by one leaves the one that stands. -/
theorem Stands.foldl_merge {values : List (Sourced α)} {v : Sourced α} (h : Stands values v)
    (more : List (Sourced α)) : Stands (values ++ more) (more.foldl Sourced.merge v) := by
  induction more generalizing values v with
  | nil => exact (List.append_nil values).symm ▸ h
  | cons next rest ih =>
    rw [List.append_cons]
    exact ih (h.merge next)

/-- No two values stand. -/
theorem Stands.unique {values : List (Sourced α)} {v w : Sourced α} (hv : Stands values v)
    (hw : Stands values w) : v = w := by
  obtain ⟨earlier, later, hsplit, hlater⟩ := hv.last
  obtain ⟨earlier', later', hsplit', hlater'⟩ := hw.last
  have hvmem : v ∈ values := hsplit ▸ List.mem_append_right _ (List.mem_cons_self ..)
  have hwmem : w ∈ values := hsplit' ▸ List.mem_append_right _ (List.mem_cons_self ..)
  have hsource : v.source = w.source :=
    Source.eq_of_rank_eq (Nat.le_antisymm (hw.highest v hvmem) (hv.highest w hwmem))
  -- The one further to the left would have the other behind it, which comes from the same source.
  rcases List.append_eq_append_iff.mp (hsplit.symm.trans hsplit') with
    ⟨between, -, hbehind⟩ | ⟨between, -, hbehind⟩
  · cases between with
    | nil => exact (List.cons.inj hbehind).1
    | cons _ between =>
      obtain ⟨-, rfl⟩ := List.cons.inj hbehind
      exact absurd hsource.symm (hlater w (by simp))
  · cases between with
    | nil => exact (List.cons.inj hbehind).1.symm
    | cons _ between =>
      obtain ⟨-, rfl⟩ := List.cons.inj hbehind
      exact absurd hsource (hlater' v (by simp))

/-- The merge of values that are given one after the other, if there are any. -/
def mergeAll? : List (Sourced α) → Option (Sourced α)
  | [] => none
  | first :: later => some (later.foldl merge first)

/-- The merge of two lists behind one another is that of their merges. -/
theorem mergeAll?_append (front back : List (Sourced α)) :
    mergeAll? (front ++ back) = Option.merge merge (mergeAll? front) (mergeAll? back) := by
  cases front with
  | nil => cases back <;> rfl
  | cons first later =>
    cases back with
    | nil => rw [List.append_nil]; rfl
    | cons next rest =>
      have hassoc : (next :: rest).foldl merge (later.foldl merge first) =
          (later.foldl merge first).merge (rest.foldl merge next) := List.foldl_assoc
      rw [List.cons_append, mergeAll?, List.foldl_append, hassoc]
      rfl

/-- Merging consecutive groups and then their merges is merging everything. -/
theorem mergeAll?_flatten (groups : List (List (Sourced α)))
    (hgroups : ∀ group ∈ groups, group ≠ []) :
    ∃ merged, List.Forall₂ (fun group v => mergeAll? group = some v) groups merged ∧
      mergeAll? merged = mergeAll? groups.flatten := by
  induction groups with
  | nil => exact ⟨[], .nil, rfl⟩
  | cons group rest ih =>
    obtain ⟨hgroup, hrest⟩ := List.forall_mem_cons.mp hgroups
    obtain ⟨first, later, rfl⟩ := List.exists_cons_of_ne_nil hgroup
    obtain ⟨merged, hmerged, hsame⟩ := ih hrest
    refine ⟨later.foldl merge first :: merged, .cons rfl hmerged, ?_⟩
    rw [List.flatten_cons, mergeAll?_append, ← hsame]
    exact mergeAll?_append [_] merged

/-- Merging is associative. Values merged from the left give the last of those from the highest
source, and the same if they are split into consecutive groups in any way, each group is merged, and
then the results are. -/
theorem merged_from_highest :
    (∀ a b c : Sourced α, (a.merge b).merge c = a.merge (b.merge c)) ∧
    (∀ (first : Sourced α) (later : List (Sourced α)) (v : Sourced α),
      later.foldl merge first = v ↔ Stands (first :: later) v) ∧
    ∀ groups : List (List (Sourced α)), (∀ group ∈ groups, group ≠ []) →
      ∃ merged, List.Forall₂ (fun group v => mergeAll? group = some v) groups merged ∧
        mergeAll? merged = mergeAll? groups.flatten := by
  refine ⟨merge_assoc, fun first later v => ?_, mergeAll?_flatten⟩
  have hstands : Stands (first :: later) (later.foldl merge first) :=
    (Stands.alone first).foldl_merge later
  constructor
  · rintro rfl
    exact hstands
  · exact hstands.unique

/-- Values from two groups of sources, the highest of which occurs in both. -/
def tiedGroups : List (List (Sourced Nat)) :=
  [[⟨1, .builtIn⟩, ⟨2, .flag⟩, ⟨3, .project⟩], [⟨4, .flag⟩, ⟨5, .environment⟩]]

/-- The later of the two values from the highest source stands, merged at once or group by group. -/
theorem merged_from_highest_tied :
    (∀ group ∈ tiedGroups, group ≠ []) ∧ mergeAll? tiedGroups.flatten = some ⟨4, .flag⟩ ∧
      ∃ merged, List.Forall₂ (fun group v => mergeAll? group = some v) tiedGroups merged ∧
        mergeAll? merged = some ⟨4, .flag⟩ := by
  have hgroups : ∀ group ∈ tiedGroups, group ≠ [] := by decide
  exact ⟨hgroups, rfl, merged_from_highest.2.2 tiedGroups hgroups⟩

end Sourced

end TypeSieve
