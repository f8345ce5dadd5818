import TypeSieve.Proofs.Matcher.Alignment

/-!
# Patterns that cover others

A pattern covers another if it matches anywhere in every type in which the other does. Exact matches
compose, and an atom in which the search in a pattern ends is kept by every candidate that the
pattern matches, so that searching anywhere composes too. Every pattern matches itself: one covers
another exactly if it matches anywhere in it.
-/

namespace TypeSieve.Matcher

/-- A pattern matches anywhere in every type in which another does. -/
def Covers (m : Matcher) (pattern covered : TypeExpr) : Prop :=
  ∀ candidate, m.anywhere covered candidate = true → m.anywhere pattern candidate = true

/-- A pattern matches itself. -/
theorem exact_self (pattern : TypeExpr) : exact pattern pattern = .matched :=
  (exact_eq_matched_iff _ _).mpr (Or.inr (Or.inl rfl))

/-- A pattern matches anywhere in itself. -/
theorem anywhere_self (pattern : TypeExpr) : anywhere exact pattern pattern = true :=
  (anywhere_iff exact pattern pattern).mpr (Or.inl (exact_self pattern))

/-- The wildcard matches every candidate. -/
theorem exact_wildcard (candidate : TypeExpr) : exact (.leaf wildcard) candidate = .matched :=
  (exact_eq_matched_iff _ _).mpr (Or.inl rfl)

/-- Matches of items compose if those of each item do. -/
theorem exactItems_trans {parts items candidates : List TypeExpr}
    (htrans : ∀ part ∈ parts, ∀ {item candidate}, exact part item = .matched →
      exact item candidate = .matched → exact part candidate = .matched)
    (hitems : exactItems parts items = .matched)
    (hcandidates : exactItems items candidates = .matched) :
    exactItems parts candidates = .matched := by
  induction parts generalizing items candidates with
  | nil => rfl
  | cons part parts ih =>
    obtain ⟨hpart, hparts⟩ := List.forall_mem_cons.mp htrans
    cases items with
    | nil => cases hitems
    | cons item items =>
      cases candidates with
      | nil => cases hcandidates
      | cons candidate candidates =>
        rw [exactItems, both_eq_matched_iff] at hitems hcandidates ⊢
        exact ⟨hpart hitems.1 hcandidates.1, ih hparts hitems.2 hcandidates.2⟩

/-- A pattern matches what is matched by a type that it matches. -/
theorem exact_trans {pattern middle candidate : TypeExpr}
    (hmiddle : exact pattern middle = .matched) (hcandidate : exact middle candidate = .matched) :
    exact pattern candidate = .matched := by
  induction pattern using TypeExpr.ind generalizing middle candidate with
  | leaf name =>
    rcases (exact_eq_matched_iff _ _).mp hmiddle with hwild | rfl | ⟨parts, items, hpattern, -⟩
    · rw [hwild]
      exact exact_wildcard candidate
    · exact hcandidate
    · cases hpattern
  | literal text =>
    rcases (exact_eq_matched_iff _ _).mp hmiddle with hwild | rfl | ⟨parts, items, hpattern, -⟩
    · cases hwild
    · exact hcandidate
    · cases hpattern
  | tuple parts ih =>
    rcases (exact_eq_matched_iff _ _).mp hmiddle with
      hwild | rfl | ⟨parts', items, hpattern, rfl, hitems⟩
    · cases hwild
    · exact hcandidate
    · obtain rfl := TypeExpr.tuple.inj hpattern
      rcases (exact_eq_matched_iff _ _).mp hcandidate with
        hwild | rfl | ⟨items', candidates, hmiddle', rfl, hcandidates⟩
      · cases hwild
      · exact hmiddle
      · obtain rfl := TypeExpr.tuple.inj hmiddle'
        exact (exact_eq_matched_iff _ _).mpr (Or.inr (Or.inr ⟨_, _, rfl, rfl,
          exactItems_trans (fun part hpart _ _ => ih part hpart) hitems hcandidates⟩))

/-- Only the wildcard and the atom itself match an atom. -/
theorem eq_of_exact_atom {pattern atom e : TypeExpr} (hatom : atom ∈ e.atoms)
    (h : exact pattern atom = .matched) : pattern = .leaf wildcard ∨ pattern = atom := by
  rcases (exact_eq_matched_iff _ _).mp h with hwild | hequal | ⟨parts, items, -, rfl, -⟩
  · exact Or.inl hwild
  · exact Or.inr hequal
  · rcases TypeExpr.leaf_or_literal_of_mem_atoms hatom with ⟨name, heq⟩ | ⟨text, heq⟩ <;> cases heq

/-- A fixed atom of a pattern stands in every type in which the pattern matches anywhere. -/
theorem mem_atoms_of_anywhere {pattern candidate atom : TypeExpr} (hatom : atom ∈ pattern.atoms)
    (hfixed : atom ≠ .leaf wildcard) (h : anywhere exact pattern candidate = true) :
    atom ∈ candidate.atoms := by
  have hmem : atom ∈ fixedAtoms pattern := List.mem_filter.mpr ⟨hatom, decide_eq_true hfixed⟩
  rcases (anywhere_iff exact pattern candidate).mp h with hwhole | ⟨found, hfound, hmatch⟩
  · exact (fixedAtoms_sublist_of_exact hwhole).subset hmem
  · have hsingle := (fixedAtoms_sublist_of_exact hmatch).subset hmem
    rw [TypeExpr.atoms_of_mem_atoms hfound] at hsingle
    exact List.mem_singleton.mp hsingle ▸ hfound

/-- A pattern matches anywhere in what is matched anywhere by a type in which it matches
anywhere. -/
theorem anywhere_trans {pattern middle candidate : TypeExpr}
    (hmiddle : anywhere exact pattern middle = true)
    (hcandidate : anywhere exact middle candidate = true) :
    anywhere exact pattern candidate = true := by
  rw [anywhere_iff] at hmiddle ⊢
  rcases hmiddle with hwhole | ⟨atom, hatom, hmatch⟩
  · rcases (anywhere_iff exact middle candidate).mp hcandidate with hmatch | ⟨found, hfound, hmatch⟩
    · exact Or.inl (exact_trans hwhole hmatch)
    · exact Or.inr ⟨found, hfound, exact_trans hwhole hmatch⟩
  · -- The pattern is an atom of the middle type, and the candidate has it as well unless it is the
    -- wildcard.
    by_cases hwild : pattern = .leaf wildcard
    · rw [hwild]
      exact Or.inl (exact_wildcard candidate)
    · obtain rfl := (eq_of_exact_atom hatom hmatch).resolve_left hwild
      exact Or.inr ⟨pattern, mem_atoms_of_anywhere hatom hwild hcandidate, hmatch⟩

/-- A pattern covers another exactly if it matches anywhere in it. -/
theorem covers_exact_iff (pattern covered : TypeExpr) :
    Covers exact pattern covered ↔ anywhere exact pattern covered = true := by
  constructor
  · intro h
    exact h covered (anywhere_self covered)
  · intro h candidate hcandidate
    exact anywhere_trans h hcandidate

end TypeSieve.Matcher
