import TypeSieve.Matcher.Exact
import TypeSieve.Proofs.TypeExpr.Occurrences
import Mathlib.Data.List.Forall2

/-!
# How an exact match aligns atoms

A pattern that matches a candidate is the wildcard, is the candidate, or is a tuple whose items
match the first items of a tuple. Without wildcards every atom of a matching pattern therefore meets
an equal atom of the candidate, and the atoms met stand in the same order. This holds of a match
anywhere in the candidate as well, since an atom of the candidate stands among its atoms.
-/

namespace TypeSieve.Matcher

/-- Two parts match together exactly when each of them does. -/
theorem both_eq_matched_iff (a b : Outcome) :
    a.both b = .matched ↔ a = .matched ∧ b = .matched := by
  cases a <;> cases b <;> simp [Outcome.both]

/-- An outcome is a match exactly if it is this outcome. -/
theorem isMatch_iff (outcome : Outcome) : outcome.isMatch = true ↔ outcome = .matched := by
  cases outcome <;> simp [Outcome.isMatch]

/-- The items of a pattern match exactly when the candidate begins with items that they match one by
one. -/
theorem exactItems_eq_matched_iff (parts items : List TypeExpr) :
    exactItems parts items = .matched ↔
      ∃ front back, items = front ++ back ∧
        List.Forall₂ (fun part item => exact part item = .matched) parts front := by
  induction parts generalizing items with
  | nil => simp [exactItems]
  | cons part parts ih =>
    cases items with
    | nil => simp [exactItems]
    | cons item items =>
      rw [exactItems, both_eq_matched_iff, ih]
      constructor
      · intro h
        obtain ⟨hitem, front, back, rfl, hfront⟩ := h
        exact ⟨item :: front, back, rfl, .cons hitem hfront⟩
      · intro h
        obtain ⟨front, back, hsplit, hfront⟩ := h
        obtain ⟨first, rest, hfirst, hrest, rfl⟩ := List.forall₂_cons_left_iff.mp hfront
        obtain ⟨rfl, rfl⟩ := List.cons.inj hsplit
        exact ⟨hfirst, rest, back, rfl, hrest⟩

/-- A pattern matches exactly when it is the wildcard, is the candidate, or is a tuple whose items
match the first items of the candidate. -/
theorem exact_eq_matched_iff (pattern candidate : TypeExpr) :
    exact pattern candidate = .matched ↔ pattern = .leaf wildcard ∨ pattern = candidate ∨
      ∃ parts items, pattern = .tuple parts ∧ candidate = .tuple items ∧
        exactItems parts items = .matched := by
  rw [exact.eq_def]
  split
  · next hequal => simp only [← or_assoc, hequal, true_or]
  · next hequal =>
    rw [not_or] at hequal
    simp only [hequal.1, hequal.2, false_or]
    cases pattern <;> cases candidate <;> simp

/-- A pattern matches anywhere exactly when it matches the candidate or an atom in it. -/
theorem anywhere_iff (m : Matcher) (pattern candidate : TypeExpr) :
    m.anywhere pattern candidate = true ↔
      m pattern candidate = .matched ∨ ∃ atom ∈ candidate.atoms, m pattern atom = .matched := by
  cases hwhole : m pattern candidate with
  | matched => simp [anywhere, hwhole]
  | unmatched | incompatible =>
    -- The atoms of a name or literal are the whole again, and so is what a tuple without atoms
    -- flattens to.
    cases candidate with
    | leaf name => simp [anywhere, hwhole, TypeExpr.atoms, Outcome.isMatch]
    | literal text => simp [anywhere, hwhole, TypeExpr.atoms]
    | tuple items =>
      simp only [anywhere, hwhole, List.any_eq_true, isMatch_iff, reduceCtorEq, false_or]
      refine exists_congr fun part => ⟨?_, ?_⟩
      · rintro ⟨hpart, hmatch⟩
        rcases (TypeExpr.mem_flatten_iff _ _).mp hpart with hatom | ⟨-, rfl⟩
        · exact ⟨hatom, hmatch⟩
        · rw [hwhole] at hmatch
          cases hmatch
      · rintro ⟨hatom, hmatch⟩
        exact ⟨(TypeExpr.mem_flatten_iff _ _).mpr (Or.inl hatom), hmatch⟩

/-- The atoms of a pattern besides wildcards. -/
def fixedAtoms (pattern : TypeExpr) : List TypeExpr :=
  pattern.atoms.filter fun atom => decide (atom ≠ .leaf wildcard)

/-- The fixed atoms of a tuple are those of its items in order. -/
theorem fixedAtoms_tuple (parts : List TypeExpr) :
    fixedAtoms (.tuple parts) = parts.flatMap fixedAtoms := by
  rw [fixedAtoms, TypeExpr.atoms_tuple, List.filter_flatMap]
  rfl

/-- Items that match one by one have their fixed atoms in the items that they match, in order. -/
theorem flatMap_fixedAtoms_sublist {parts front : List TypeExpr}
    (h : List.Forall₂ (fun part item => (fixedAtoms part).Sublist item.atoms) parts front) :
    (parts.flatMap fixedAtoms).Sublist (front.flatMap TypeExpr.atoms) := by
  induction h with
  | nil => exact List.Sublist.refl _
  | cons hfirst _ ih =>
    rw [List.flatMap_cons, List.flatMap_cons]
    exact hfirst.append ih

/-- The fixed atoms of a matching pattern are among those of the candidate, in order. -/
theorem fixedAtoms_sublist_of_exact {pattern candidate : TypeExpr}
    (h : exact pattern candidate = .matched) : (fixedAtoms pattern).Sublist candidate.atoms := by
  induction pattern using TypeExpr.ind generalizing candidate with
  | leaf name =>
    rcases (exact_eq_matched_iff _ _).mp h with hpattern | rfl | ⟨parts, items, hpattern, -⟩
    · rw [hpattern]
      exact List.nil_sublist _
    · exact List.filter_sublist
    · cases hpattern
  | literal text =>
    rcases (exact_eq_matched_iff _ _).mp h with hpattern | rfl | ⟨parts, items, hpattern, -⟩
    · cases hpattern
    · exact List.filter_sublist
    · cases hpattern
  | tuple parts ih =>
    rcases (exact_eq_matched_iff _ _).mp h with
      hpattern | rfl | ⟨parts', items, hpattern, rfl, hitems⟩
    · cases hpattern
    · exact List.filter_sublist
    · obtain rfl := TypeExpr.tuple.inj hpattern
      obtain ⟨front, back, rfl, hfront⟩ := (exactItems_eq_matched_iff _ _).mp hitems
      rw [fixedAtoms_tuple, TypeExpr.atoms_tuple, List.flatMap_append]
      have haligned :
          List.Forall₂ (fun part item => (fixedAtoms part).Sublist item.atoms) parts front := by
        refine List.Forall₂.imp (fun part item hpair => ?_) ((List.forall₂_and_left _ _).mpr
          ⟨fun part hpart => hpart, hfront⟩)
        exact ih part hpair.1 hpair.2
      -- The items behind those that are matched have further atoms only.
      exact (flatMap_fixedAtoms_sublist haligned).trans (List.sublist_append_left _ _)

/-- The atoms of a matching pattern without wildcards are among those of the candidate, in order. -/
theorem atoms_sublist_of_exact {pattern candidate : TypeExpr}
    (h : exact pattern candidate = .matched) (hwild : .leaf wildcard ∉ pattern.atoms) :
    pattern.atoms.Sublist candidate.atoms := by
  have hfixed : fixedAtoms pattern = pattern.atoms := by
    rw [fixedAtoms, List.filter_eq_self]
    intro atom hatom
    exact decide_eq_true fun heq => hwild (heq ▸ hatom)
  exact hfixed ▸ fixedAtoms_sublist_of_exact h

/-- The atoms of a pattern without wildcards that matches anywhere are among those of the candidate,
in order. -/
theorem atoms_sublist_of_anywhere {pattern candidate : TypeExpr}
    (h : anywhere exact pattern candidate = true) (hwild : .leaf wildcard ∉ pattern.atoms) :
    pattern.atoms.Sublist candidate.atoms := by
  rcases (anywhere_iff exact pattern candidate).mp h with hwhole | ⟨atom, hatom, hmatch⟩
  · exact atoms_sublist_of_exact hwhole hwild
  · have hsub := atoms_sublist_of_exact hmatch hwild
    rw [TypeExpr.atoms_of_mem_atoms hatom] at hsub
    exact hsub.trans (List.singleton_sublist.mpr hatom)

end TypeSieve.Matcher
