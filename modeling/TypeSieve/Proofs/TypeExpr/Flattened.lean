import TypeSieve.Proofs.TypeExpr.Occurrences
import Mathlib.Data.List.Sort
import Mathlib.Data.Option.Basic

/-!
# The order in which a type is flattened

A position in a type tells at each level the index of the item to enter. Two positions of which
neither continues the other compare as lists do: the one further to the left is the smaller one. A
type with an atom flattens to what stands at the positions of its atoms, in ascending order and each
of them once. A type of tuples alone flattens to itself, and so the flattened items of a tuple make
up the flattened tuple only if all of them, and at least one, have an atom.
-/

namespace TypeSieve.TypeExpr

/-- The part of a type at a position. -/
def part? : TypeExpr → List Nat → Option TypeExpr
  | e, [] => some e
  | .tuple items, index :: position => items[index]?.bind fun item => part? item position
  | .leaf _, _ :: _ | .literal _, _ :: _ => none

/-- The part of a tuple behind an index is that of the item. -/
theorem part?_tuple_cons (items : List TypeExpr) (index : Nat) (position : List Nat) :
    (tuple items).part? (index :: position) = items[index]?.bind (·.part? position) := rfl

/-- A name or a literal stands at a position of the type. -/
def AtomAt (e : TypeExpr) (position : List Nat) : Prop :=
  ∃ atom, atom.IsAtom ∧ e.part? position = some atom

/-- A list is what stands at the positions of the atoms of a type, from left to right and each
position once. -/
def ListsAtoms (e : TypeExpr) (list : List TypeExpr) : Prop :=
  ∃ positions : List (List Nat), positions.Pairwise (· < ·) ∧
    (∀ position, position ∈ positions ↔ e.AtomAt position) ∧ list.map some = positions.map e.part?

/-- A name or a literal occurs in the type. -/
def HasAtom (e : TypeExpr) : Prop := ∃ atom, atom.IsAtom ∧ Occurs atom e

/-- Every part of the type is a tuple. -/
def OnlyTuples (e : TypeExpr) : Prop := ∀ part, Occurs part e → ∃ items, part = .tuple items

/-- Positions in the items of a tuple as positions in the tuple, item by item. -/
def positionsWithin (positionsIn : TypeExpr → List (List Nat)) (items : List TypeExpr) :
    List (List Nat) :=
  items.zipIdx.flatMap fun entry => (positionsIn entry.1).map (entry.2 :: ·)

/-- A position in a tuple is an index and a position in the item there. -/
theorem mem_positionsWithin_iff (positionsIn : TypeExpr → List (List Nat)) (items : List TypeExpr)
    (position : List Nat) :
    position ∈ positionsWithin positionsIn items ↔
      ∃ index item rest, items[index]? = some item ∧ rest ∈ positionsIn item ∧
        position = index :: rest := by
  simp only [positionsWithin, List.mem_flatMap, List.mem_map, Prod.exists,
    List.mem_zipIdx_iff_getElem?]
  constructor
  · rintro ⟨item, index, hitem, rest, hrest, rfl⟩
    exact ⟨index, item, rest, hitem, hrest, rfl⟩
  · rintro ⟨index, item, rest, hitem, hrest, rfl⟩
    exact ⟨item, index, hitem, rest, hrest, rfl⟩

/-- Positions that ascend in each item ascend in the tuple. -/
theorem pairwise_positionsWithin {positionsIn : TypeExpr → List (List Nat)} {items : List TypeExpr}
    (h : ∀ item ∈ items, (positionsIn item).Pairwise (· < ·)) :
    (positionsWithin positionsIn items).Pairwise (· < ·) := by
  rw [positionsWithin, List.pairwise_flatMap]
  constructor
  · intro entry hentry
    have hitem := List.mem_of_getElem? (List.mem_zipIdx_iff_getElem?.mp hentry)
    exact List.pairwise_map.mpr ((h entry.1 hitem).imp List.cons_lt_cons_self.mpr)
  · have hindices : items.zipIdx.Pairwise fun a b => a.2 < b.2 := by
      rw [← List.pairwise_map, List.zipIdx_map_snd]
      exact List.pairwise_lt_range'
    refine hindices.imp fun hlt position hposition other hother => ?_
    obtain ⟨rest, -, rfl⟩ := List.mem_map.mp hposition
    obtain ⟨rest', -, rfl⟩ := List.mem_map.mp hother
    exact List.Lex.rel hlt

/-- What stands in a tuple at positions in its items is what stands there in the items. -/
theorem map_part?_positionsWithin (positionsIn : TypeExpr → List (List Nat))
    (items : List TypeExpr) :
    (positionsWithin positionsIn items).map (tuple items).part? =
      items.flatMap fun item => (positionsIn item).map item.part? := by
  have hitems : items.zipIdx.flatMap (fun entry => (positionsIn entry.1).map entry.1.part?) =
      items.flatMap fun item => (positionsIn item).map item.part? := by
    conv_rhs => rw [← List.zipIdx_map_fst 0 items, List.flatMap_map]
  rw [positionsWithin, List.map_flatMap, ← hitems]
  refine List.flatMap_congr fun entry hentry => ?_
  rw [List.map_map]
  refine List.map_congr_left fun position _ => ?_
  rw [Function.comp_apply, part?_tuple_cons,
    List.mem_zipIdx_iff_getElem?.mp hentry, Option.bind_some]

/-- An atom stands in an atom at the empty position only. -/
theorem atomAt_iff_of_isAtom {e : TypeExpr} (he : e.IsAtom) (position : List Nat) :
    e.AtomAt position ↔ position = [] := by
  cases position with
  | nil => exact ⟨fun _ => rfl, fun _ => ⟨e, he, by cases e <;> rfl⟩⟩
  | cons index rest =>
    constructor
    · rintro ⟨atom, -, hpart⟩
      cases e with
      | leaf name => cases hpart
      | literal text => cases hpart
      | tuple items => exact he.elim
    · intro h
      cases h

/-- An atom stands in a tuple where it stands in an item. -/
theorem atomAt_tuple_iff (items : List TypeExpr) (position : List Nat) :
    (tuple items).AtomAt position ↔
      ∃ index item rest, items[index]? = some item ∧ item.AtomAt rest ∧
        position = index :: rest := by
  constructor
  · rintro ⟨atom, hatom, hpart⟩
    cases position with
    | nil =>
      obtain rfl := Option.some.inj hpart
      exact hatom.elim
    | cons index rest =>
      rw [part?_tuple_cons] at hpart
      obtain ⟨item, hitem, hinside⟩ := Option.bind_eq_some_iff.mp hpart
      exact ⟨index, item, rest, hitem, ⟨atom, hatom, hinside⟩, rfl⟩
  · rintro ⟨index, item, rest, hitem, ⟨atom, hatom, hinside⟩, rfl⟩
    refine ⟨atom, hatom, ?_⟩
    rw [part?_tuple_cons, hitem, Option.bind_some, hinside]

/-- The one atom of an atom is listed. -/
theorem listsAtoms_of_isAtom {e : TypeExpr} (he : e.IsAtom) : e.ListsAtoms e.atoms := by
  refine ⟨[[]], List.pairwise_singleton _ _, fun position => ?_, ?_⟩
  · rw [List.mem_singleton, atomAt_iff_of_isAtom he]
  · rw [atoms_of_isAtom he]
    cases e <;> rfl

/-- The atoms of a type are listed from left to right. -/
theorem listsAtoms_atoms (e : TypeExpr) : e.ListsAtoms e.atoms := by
  induction e using TypeExpr.ind with
  | leaf name => exact listsAtoms_of_isAtom (by trivial)
  | literal text => exact listsAtoms_of_isAtom (by trivial)
  | tuple items ih =>
    -- The positions in the items are those that the induction gives; only their indices are put in
    -- front of them.
    choose! positionsIn hascending hmem hlist using ih
    refine ⟨positionsWithin positionsIn items, pairwise_positionsWithin hascending,
      fun position => ?_, ?_⟩
    · rw [mem_positionsWithin_iff, atomAt_tuple_iff]
      refine exists_congr fun index => exists_congr fun item => exists_congr fun rest => ?_
      exact and_congr_right fun hitem =>
        and_congr_left' (hmem item (List.mem_of_getElem? hitem) rest)
    · rw [map_part?_positionsWithin, atoms_tuple, List.map_flatMap]
      exact List.flatMap_congr hlist

/-- There is one list of the atoms of a type from left to right. -/
theorem listsAtoms_iff (e : TypeExpr) (list : List TypeExpr) :
    e.ListsAtoms list ↔ list = e.atoms := by
  constructor
  · rintro ⟨positions, hascending, hmem, hlist⟩
    obtain ⟨positions', hascending', hmem', hlist'⟩ := e.listsAtoms_atoms
    have hpositions : positions = positions' :=
      hascending.eq_of_mem_iff hascending' fun position =>
        (hmem position).trans (hmem' position).symm
    rw [hpositions, ← hlist'] at hlist
    exact List.map_injective_iff.mpr (Option.some_injective _) hlist
  · rintro rfl
    exact e.listsAtoms_atoms

/-- A type has an atom exactly if the list of its atoms is not empty. -/
theorem hasAtom_iff (e : TypeExpr) : e.HasAtom ↔ e.atoms ≠ [] := by
  simp only [HasAtom, ← mem_atoms_iff, ne_eq, List.eq_nil_iff_forall_not_mem, not_forall, not_not]

/-- A type without atoms is one of tuples alone. -/
theorem not_hasAtom_iff (e : TypeExpr) : ¬ e.HasAtom ↔ e.OnlyTuples := by
  constructor
  · intro hnone part hpart
    cases part with
    | leaf name => exact absurd ⟨_, by trivial, hpart⟩ hnone
    | literal text => exact absurd ⟨_, by trivial, hpart⟩ hnone
    | tuple items => exact ⟨items, rfl⟩
  · rintro honly ⟨atom, hatom, hoccurs⟩
    obtain ⟨items, rfl⟩ := honly atom hoccurs
    exact hatom

/-- A type with an atom flattens to its atoms. -/
theorem flatten_of_hasAtom {e : TypeExpr} (h : e.HasAtom) : e.flatten = e.atoms :=
  if_neg ((hasAtom_iff e).mp h)

/-- A type without atoms flattens to itself. -/
theorem flatten_of_not_hasAtom {e : TypeExpr} (h : ¬ e.HasAtom) : e.flatten = [e] := by
  rw [hasAtom_iff, ne_eq, not_not] at h
  exact if_pos h

/-- What a type flattens to is never empty. -/
theorem flatten_ne_nil (e : TypeExpr) : e.flatten ≠ [] := by
  by_cases h : e.HasAtom
  · rw [flatten_of_hasAtom h]
    exact (hasAtom_iff e).mp h
  · rw [flatten_of_not_hasAtom h]
    exact List.cons_ne_nil _ _

/-- Flattening what a type flattens to changes nothing. -/
theorem flatMap_flatten_flatten (e : TypeExpr) : e.flatten.flatMap flatten = e.flatten := by
  by_cases h : e.HasAtom
  · have hatoms : ∀ atom ∈ e.atoms, atom.flatten = [atom] := by
      intro atom hatom
      rw [flatten, atoms_of_mem_atoms hatom]
      exact if_neg (List.cons_ne_nil _ _)
    rw [flatten_of_hasAtom h, List.flatMap_congr hatoms, List.flatMap_singleton']
  · rw [flatten_of_not_hasAtom h, List.flatMap_singleton, flatten_of_not_hasAtom h]

/-- A tuple flattens to its flattened items if it has items and each of them has an atom. -/
theorem flatten_tuple {items : List TypeExpr} (hitems : items ≠ [])
    (hatoms : ∀ item ∈ items, item.HasAtom) : (tuple items).flatten = items.flatMap flatten := by
  have htuple : (tuple items).HasAtom := by
    obtain ⟨item, hitem⟩ := List.exists_mem_of_ne_nil _ hitems
    obtain ⟨atom, hatom, hoccurs⟩ := hatoms item hitem
    exact ⟨atom, hatom, .item hitem hoccurs⟩
  rw [flatten_of_hasAtom htuple, atoms_tuple]
  exact (List.flatMap_congr fun item hitem => flatten_of_hasAtom (hatoms item hitem)).symm

/-- A type with an atom flattens to its atoms from left to right, each occurrence once, and any
other type, which is one of tuples alone, to itself. So what a type flattens to is never empty, and
flattening it again changes nothing. A tuple with at least one item flattens to its flattened items
in order if each item has an atom. -/
theorem flatten_from_left (e : TypeExpr) :
    (e.HasAtom → ∀ list, e.ListsAtoms list ↔ list = e.flatten) ∧ (¬ e.HasAtom → e.flatten = [e]) ∧
    (¬ e.HasAtom ↔ e.OnlyTuples) ∧
    e.flatten ≠ [] ∧ e.flatten.flatMap flatten = e.flatten ∧
    ∀ items : List TypeExpr, items ≠ [] → (∀ item ∈ items, item.HasAtom) →
      (tuple items).flatten = items.flatMap flatten := by
  have hlists : e.HasAtom → ∀ list, e.ListsAtoms list ↔ list = e.flatten := by
    intro h list
    rw [listsAtoms_iff, flatten_of_hasAtom h]
  exact ⟨hlists, flatten_of_not_hasAtom, not_hasAtom_iff e, flatten_ne_nil e,
    flatMap_flatten_flatten e, fun items => flatten_tuple⟩

/-- Two items with a name and tuples without atoms in them. -/
def vectorItems : List TypeExpr :=
  [.leaf "vector", .tuple [.tuple [], .leaf "int32", .tuple [.tuple []]]]

/-- The items with a tuple without atoms, a number and one of the names again. -/
def numberedVector : TypeExpr := .tuple (vectorItems ++ [.tuple [], .literal "3", .leaf "int32"])

/-- The repeated name is listed at both of its places, tuples without atoms are not listed among
atoms and flatten to themselves on their own, and the tuple of the two items flattens to these. -/
theorem flatten_from_left_vector :
    (numberedVector.HasAtom ∧
      numberedVector.ListsAtoms [.leaf "vector", .leaf "int32", .literal "3", .leaf "int32"]) ∧
    (¬ (tuple [.tuple []]).HasAtom ∧ (tuple [.tuple []]).flatten = [.tuple [.tuple []]]) ∧
    (vectorItems ≠ [] ∧ (∀ item ∈ vectorItems, item.HasAtom) ∧
      (tuple vectorItems).flatten = vectorItems.flatMap flatten) := by
  have hatom : numberedVector.HasAtom := (hasAtom_iff _).mpr (by decide +kernel)
  have hnone : ¬ (tuple [.tuple []]).HasAtom := by
    rw [hasAtom_iff, not_not]
    rfl
  have hitems : ∀ item ∈ vectorItems, item.HasAtom := by
    intro item hitem
    have hatoms : ∀ item ∈ vectorItems, item.atoms ≠ [] := by decide +kernel
    exact (hasAtom_iff item).mpr (hatoms item hitem)
  obtain ⟨hlists, -, -, -, -, htuple⟩ := flatten_from_left numberedVector
  exact ⟨⟨hatom, (hlists hatom _).mpr rfl⟩,
    ⟨hnone, (flatten_from_left (.tuple [.tuple []])).2.1 hnone⟩, by decide, hitems,
    htuple vectorItems (by decide) hitems⟩

/-- The empty tuple has no item without an atom, and yet it flattens to itself. -/
theorem not_flatten_tuple : ¬ ∀ items : List TypeExpr, (∀ item ∈ items, item.HasAtom) →
    (tuple items).flatten = items.flatMap flatten := by
  intro h
  have hempty : [tuple []] = [] := h [] fun _ hitem => nomatch hitem
  cases hempty

end TypeSieve.TypeExpr
