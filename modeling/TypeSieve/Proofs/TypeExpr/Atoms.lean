import TypeSieve.TypeExpr.Basic

/-!
# The atoms of a type

The names and literals of a type from left to right, at every depth. A type has none exactly if it
is made of tuples alone, and then one of these is empty.
-/

namespace TypeSieve.TypeExpr

/-- Induction on a type, with the items of tuples at hand. -/
@[elab_as_elim]
theorem ind {motive : TypeExpr → Prop} (leaf : ∀ name, motive (.leaf name))
    (literal : ∀ text, motive (.literal text))
    (tuple : ∀ items, (∀ item ∈ items, motive item) → motive (.tuple items))
    (e : TypeExpr) : motive e :=
  @TypeExpr.rec motive (fun items => ∀ item ∈ items, motive item) leaf literal tuple
    (fun _ hmem => nomatch hmem) (fun _ _ hitem hrest => List.forall_mem_cons.mpr ⟨hitem, hrest⟩) e

/-- The atoms of a tuple are those of its items in order. -/
theorem atoms_tuple (items : List TypeExpr) : (tuple items).atoms = items.flatMap atoms :=
  atomsOf_eq_flatMap items

/-- All atoms of a tuple are those of all its items. -/
theorem forall_mem_atoms_tuple {p : TypeExpr → Prop} {items : List TypeExpr} :
    (∀ atom ∈ (tuple items).atoms, p atom) ↔ ∀ item ∈ items, ∀ atom ∈ item.atoms, p atom := by
  rw [atoms_tuple, List.forall_mem_flatMap]

/-- An atom of a type is a name or a literal. -/
theorem leaf_or_literal_of_mem_atoms {e atom : TypeExpr} (h : atom ∈ e.atoms) :
    (∃ name, atom = .leaf name) ∨ ∃ text, atom = .literal text := by
  induction e using TypeExpr.ind with
  | leaf name => exact Or.inl ⟨name, List.mem_singleton.mp h⟩
  | literal text => exact Or.inr ⟨text, List.mem_singleton.mp h⟩
  | tuple items ih =>
    rw [atoms_tuple] at h
    obtain ⟨item, hitem, hatom⟩ := List.mem_flatMap.mp h
    exact ih item hitem hatom

/-- An atom of a type is its own only atom. -/
theorem atoms_of_mem_atoms {e atom : TypeExpr} (h : atom ∈ e.atoms) : atom.atoms = [atom] := by
  rcases leaf_or_literal_of_mem_atoms h with ⟨name, rfl⟩ | ⟨text, rfl⟩
  · rfl
  · rfl

/-- A type without empty tuples has an atom. -/
theorem atoms_ne_nil {e : TypeExpr} (h : e.hasEmptyTuple = false) : e.atoms ≠ [] := by
  induction e using TypeExpr.ind with
  | leaf name => exact List.cons_ne_nil _ _
  | literal text => exact List.cons_ne_nil _ _
  | tuple items ih =>
    cases items with
    | nil => cases h
    | cons item rest =>
      rw [hasEmptyTuple, hasEmptyTupleIn, Bool.or_eq_false_iff] at h
      rw [atoms_tuple, List.flatMap_cons]
      exact List.append_ne_nil_of_left_ne_nil (ih item (List.mem_cons_self ..) h.1) _

end TypeSieve.TypeExpr
