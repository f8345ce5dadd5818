import TypeSieve.Proofs.Matcher.Covering

/-!
# What a search anywhere finds

A search tries the whole candidate and the names and literals that occur in it, at every depth, and
nothing else. With exact matches it finds an atom wherever it occurs, while a tuple has to match the
whole candidate: it matches no atom, and the tuples inside the candidate are never tried.
-/

namespace TypeSieve.Matcher

open TypeExpr (Occurs IsAtom)

/-- An atom besides the wildcard matches exactly itself. -/
theorem exact_eq_matched_iff_of_isAtom {pattern : TypeExpr} (hpattern : pattern.IsAtom)
    (hfixed : pattern ≠ .leaf wildcard) (candidate : TypeExpr) :
    exact pattern candidate = .matched ↔ pattern = candidate := by
  rw [exact_eq_matched_iff]
  constructor
  · rintro (hwild | hequal | ⟨parts, items, rfl, -⟩)
    · exact absurd hwild hfixed
    · exact hequal
    · exact hpattern.elim
  · intro hequal
    exact Or.inr (Or.inl hequal)

/-- A tuple matches no atom. -/
theorem exact_tuple_ne_matched_of_isAtom (parts : List TypeExpr) {atom : TypeExpr}
    (hatom : atom.IsAtom) : exact (.tuple parts) atom ≠ .matched := by
  rw [ne_eq, exact_eq_matched_iff]
  rintro (hwild | rfl | ⟨-, items, -, rfl, -⟩)
  · cases hwild
  · exact hatom.elim
  · exact hatom.elim

/-- A search finds a match of the whole candidate or of a name or literal that occurs in it. -/
theorem anywhere_iff_occurs (m : Matcher) (pattern candidate : TypeExpr) :
    m.anywhere pattern candidate = true ↔
      m pattern candidate = .matched ∨ ∃ atom, atom.IsAtom ∧ Occurs atom candidate ∧
        m pattern atom = .matched := by
  simp only [anywhere_iff, TypeExpr.mem_atoms_iff, and_assoc]

/-- A search finds a match of the whole candidate or, if this is a tuple, of a name or literal that
occurs in it. -/
theorem anywhere_iff_tuple (m : Matcher) (pattern candidate : TypeExpr) :
    m.anywhere pattern candidate = true ↔ m pattern candidate = .matched ∨
      (∃ items, candidate = .tuple items) ∧
        ∃ atom, atom.IsAtom ∧ Occurs atom candidate ∧ m pattern atom = .matched := by
  rw [anywhere_iff_occurs]
  constructor
  · rintro (hwhole | ⟨atom, hatom, hoccurs, hmatch⟩)
    · exact Or.inl hwhole
    · cases candidate with
      | tuple items => exact Or.inr ⟨⟨items, rfl⟩, atom, hatom, hoccurs, hmatch⟩
      | leaf name | literal text =>
        obtain rfl := (TypeExpr.occurs_atom_iff (by trivial) atom).mp hoccurs
        exact Or.inl hmatch
  · rintro (hwhole | ⟨-, hinside⟩)
    · exact Or.inl hwhole
    · exact Or.inr hinside

/-- Matchers that match the whole candidate and the names and literals in it alike find the same,
whatever they answer for the tuples in it. -/
theorem anywhere_congr {m n : Matcher} {pattern candidate : TypeExpr}
    (hwhole : m pattern candidate = .matched ↔ n pattern candidate = .matched)
    (hatoms : ∀ atom, atom.IsAtom → Occurs atom candidate →
      (m pattern atom = .matched ↔ n pattern atom = .matched)) :
    m.anywhere pattern candidate = n.anywhere pattern candidate := by
  rw [Bool.eq_iff_iff, anywhere_iff_occurs, anywhere_iff_occurs, hwhole]
  refine or_congr_right
    (exists_congr fun atom => and_congr_right fun hatom => and_congr_right fun hoccurs => ?_)
  exact hatoms atom hatom hoccurs

/-- A search finds an atom besides the wildcard exactly where it occurs. -/
theorem anywhere_exact_atom_iff {pattern : TypeExpr} (hpattern : pattern.IsAtom)
    (hfixed : pattern ≠ .leaf wildcard) (candidate : TypeExpr) :
    anywhere exact pattern candidate = true ↔ Occurs pattern candidate := by
  simp only [anywhere_iff_occurs, exact_eq_matched_iff_of_isAtom hpattern hfixed]
  constructor
  · rintro (rfl | ⟨atom, -, hoccurs, rfl⟩)
    · exact .whole
    · exact hoccurs
  · intro hoccurs
    exact Or.inr ⟨pattern, hpattern, hoccurs, rfl⟩

/-- A search finds a tuple exactly if it matches the whole candidate. -/
theorem anywhere_exact_tuple_iff (parts : List TypeExpr) (candidate : TypeExpr) :
    anywhere exact (.tuple parts) candidate = true ↔ exact (.tuple parts) candidate = .matched := by
  rw [anywhere_iff_occurs]
  constructor
  · rintro (hwhole | ⟨atom, hatom, -, hmatch⟩)
    · exact hwhole
    · exact absurd hmatch (exact_tuple_ne_matched_of_isAtom parts hatom)
  · exact Or.inl

/-- What a search anywhere finds. With any matcher it finds a match of the whole candidate or, in a
tuple, of a name or literal that occurs in it; what the matcher answers for the tuples inside makes
no difference. With exact matches it always finds the wildcard, it finds another atom exactly where
it occurs, and a tuple exactly if this matches the whole candidate. -/
theorem anywhere_finds (candidate : TypeExpr) :
    (∀ (m : Matcher) (pattern : TypeExpr), m.anywhere pattern candidate = true ↔
      m pattern candidate = .matched ∨
        (∃ items, candidate = .tuple items) ∧
          ∃ atom, atom.IsAtom ∧ Occurs atom candidate ∧ m pattern atom = .matched) ∧
    (∀ (m n : Matcher) (pattern : TypeExpr),
      (m pattern candidate = .matched ↔ n pattern candidate = .matched) →
      (∀ atom, atom.IsAtom → Occurs atom candidate →
        (m pattern atom = .matched ↔ n pattern atom = .matched)) →
      m.anywhere pattern candidate = n.anywhere pattern candidate) ∧
    anywhere exact (.leaf wildcard) candidate = true ∧
    (∀ pattern : TypeExpr, pattern.IsAtom → pattern ≠ .leaf wildcard →
      (anywhere exact pattern candidate = true ↔ Occurs pattern candidate)) ∧
    (∀ parts, anywhere exact (.tuple parts) candidate = true ↔
      exact (.tuple parts) candidate = .matched) := by
  refine ⟨fun m pattern => anywhere_iff_tuple m pattern candidate,
    fun m n pattern => anywhere_congr, ?_,
    fun pattern hpattern hfixed => anywhere_exact_atom_iff hpattern hfixed candidate,
    fun parts => anywhere_exact_tuple_iff parts candidate⟩
  exact (anywhere_iff_occurs ..).mpr (Or.inl (exact_wildcard candidate))

/-- The type of constant references to `int32`. -/
def constReference : TypeExpr := .tuple [.tuple [.leaf "int32", .leaf "const"], .leaf "&"]

/-- The type of vectors of these references, with a tuple without atoms and a number behind it. -/
def referenceVector : TypeExpr := .tuple [.leaf "vector", constReference, .tuple [], .literal "3"]

/-- The exact matcher, except that it refuses the type of constant references. -/
def refusing : Matcher := fun pattern candidate =>
  if candidate = constReference then .unmatched else exact pattern candidate

/-- In a vector of references a search finds the name, the number and the wildcard, but not the
reference, although this occurs; a matcher that refuses references finds the name as well. -/
theorem anywhere_finds_reference :
    (anywhere exact (.leaf "const") referenceVector = true ∧
      anywhere exact (.literal "3") referenceVector = true ∧
      anywhere exact (.leaf wildcard) referenceVector = true) ∧
    (Occurs constReference referenceVector ∧
      anywhere exact constReference referenceVector = false) ∧
    refusing.anywhere (.leaf "const") referenceVector = true := by
  obtain ⟨-, hcongr, hwildcard, hatom, htuple⟩ := anywhere_finds referenceVector
  have hreference : Occurs constReference referenceVector := .item (by simp) .whole
  have hconst : Occurs (.leaf "const") constReference :=
    .item (List.mem_cons_self ..) (.item (by simp) .whole)
  have hname : anywhere exact (.leaf "const") referenceVector = true :=
    (hatom (.leaf "const") (by trivial) (by decide)).mpr (.item (by simp) hconst)
  have hnumber : anywhere exact (.literal "3") referenceVector = true :=
    (hatom (.literal "3") (by trivial) (by decide)).mpr (.item (by simp) .whole)
  refine ⟨⟨hname, hnumber, hwildcard⟩, ⟨hreference, ?_⟩, ?_⟩
  · rw [Bool.eq_false_iff, ne_eq, constReference, htuple]
    decide +kernel
  · have hother : ∀ candidate, candidate ≠ constReference →
        (refusing (.leaf "const") candidate = .matched ↔
          exact (.leaf "const") candidate = .matched) := by
      intro candidate hcandidate
      rw [refusing, if_neg hcandidate]
    rw [hcongr refusing exact (.leaf "const") (hother _ (by decide)), hname]
    intro atom hisAtom _
    refine hother atom ?_
    rintro rfl
    exact hisAtom

end TypeSieve.Matcher
