import TypeSieve.Proofs.TypeExpr.Atoms

/-!
# Where a type occurs

A type occurs in another if it is the whole of it or occurs in an item of it. The atoms of a type
are the names and literals that occur in it, and what it flattens to are these, or the type itself
if it has none.
-/

namespace TypeSieve.TypeExpr

/-- A type is the whole of another or occurs in one of its items. -/
inductive Occurs (part : TypeExpr) : TypeExpr → Prop
  | whole : Occurs part part
  | item {items : List TypeExpr} {item : TypeExpr} (hitem : item ∈ items)
    (hinside : Occurs part item) :
    Occurs part (.tuple items)

/-- A name or a literal. -/
def IsAtom : TypeExpr → Prop
  | .leaf _ | .literal _ => True
  | .tuple _ => False

/-- What occurs in a tuple is the tuple or occurs in an item. -/
theorem occurs_tuple_iff (part : TypeExpr) (items : List TypeExpr) :
    Occurs part (.tuple items) ↔ part = .tuple items ∨ ∃ item ∈ items, Occurs part item := by
  constructor
  · rintro (_ | ⟨hitem, hinside⟩)
    · exact Or.inl rfl
    · exact Or.inr ⟨_, hitem, hinside⟩
  · rintro (rfl | ⟨item, hitem, hinside⟩)
    · exact .whole
    · exact .item hitem hinside

/-- Only an atom itself occurs in it. -/
theorem occurs_atom_iff {whole : TypeExpr} (hwhole : whole.IsAtom) (part : TypeExpr) :
    Occurs part whole ↔ part = whole := by
  constructor
  · rintro (_ | _)
    · rfl
    · exact hwhole.elim
  · rintro rfl
    exact .whole

/-- An atom is its own only atom. -/
theorem atoms_of_isAtom {e : TypeExpr} (h : e.IsAtom) : e.atoms = [e] := by
  cases e with
  | leaf name => rfl
  | literal text => rfl
  | tuple items => exact h.elim

/-- The atoms of an atom are the atoms that occur in it. -/
theorem mem_atoms_iff_of_isAtom {e : TypeExpr} (he : e.IsAtom) (atom : TypeExpr) :
    atom ∈ e.atoms ↔ atom.IsAtom ∧ Occurs atom e := by
  rw [atoms_of_isAtom he, List.mem_singleton, occurs_atom_iff he]
  constructor
  · rintro rfl
    exact ⟨he, rfl⟩
  · exact And.right

/-- The atoms of a type are the names and literals that occur in it. -/
theorem mem_atoms_iff (atom e : TypeExpr) : atom ∈ e.atoms ↔ atom.IsAtom ∧ Occurs atom e := by
  induction e using TypeExpr.ind with
  | leaf name => exact mem_atoms_iff_of_isAtom (by trivial) atom
  | literal text => exact mem_atoms_iff_of_isAtom (by trivial) atom
  | tuple items ih =>
    rw [atoms_tuple, List.mem_flatMap, occurs_tuple_iff]
    constructor
    · rintro ⟨item, hitem, hatom⟩
      obtain ⟨hisAtom, hoccurs⟩ := (ih item hitem).mp hatom
      exact ⟨hisAtom, Or.inr ⟨item, hitem, hoccurs⟩⟩
    · rintro ⟨hisAtom, rfl | ⟨item, hitem, hoccurs⟩⟩
      · exact hisAtom.elim
      · exact ⟨item, hitem, (ih item hitem).mpr ⟨hisAtom, hoccurs⟩⟩

/-- A type flattens to its atoms, or to itself if it has none. -/
theorem mem_flatten_iff (part e : TypeExpr) :
    part ∈ e.flatten ↔ part ∈ e.atoms ∨ e.atoms = [] ∧ part = e := by
  unfold flatten
  split
  · next hnone => simp [hnone]
  · next hsome => simp [hsome]

end TypeSieve.TypeExpr
