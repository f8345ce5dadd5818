import TypeSieve.Proofs.Json.Numbers
import TypeSieve.Proofs.TypeExpr.ShownAgain

/-!
# Types from tuple notation in JSON

A type that was read from tuple notation is written in JSON with its tuples as arrays. Reading this
finds the same names and the same empty tuples, and the same numbers as well if they are integers; a
binary64 number may become a neighbour of it.
-/

namespace TypeSieve

namespace TypeExpr

open Notation (SpellsNumber Legible)

/-- The numbers in a type are integers. An integer of more than 64 bits and a negative zero are kept
as binary64 numbers and are none. -/
def Integral (e : TypeExpr) : Prop :=
  ∀ text, .literal text ∈ e.atoms → ∃ n : Int, text = (Json.integer n).compact

/-- A tuple is written as the array of its items. -/
theorem toJson_tuple (items : List TypeExpr) :
    (tuple items).toJson = .array (items.map toJson) := by
  rw [toJson, toJsonItems_eq_map]

/-- An array is read as the tuple of its items. -/
theorem ofJson_array (items : List Json) : ofJson (.array items) = .tuple (items.map ofJson) := by
  rw [ofJson, ofJsonItems_eq_map]

/-- A tuple has an empty tuple if it is one or one of its items has one. -/
theorem hasEmptyTuple_tuple (items : List TypeExpr) :
    (tuple items).hasEmptyTuple = (items.isEmpty || items.any hasEmptyTuple) := by
  cases items with
  | nil => rfl
  | cons item rest => rw [hasEmptyTuple, hasEmptyTupleIn_eq_any, List.isEmpty_cons, Bool.false_or]

/-- A type is written as a value that is read as the type exactly if each of its atoms is. -/
theorem ofJson_toJson_iff (e : TypeExpr) :
    ofJson e.toJson = e ↔ ∀ atom ∈ e.atoms, ofJson atom.toJson = atom := by
  induction e using TypeExpr.ind with
  | leaf name => simp only [atoms, List.forall_mem_singleton]
  | literal text => simp only [atoms, List.forall_mem_singleton]
  | tuple items ih =>
    have hitems : (items.map toJson).map ofJson = items ↔
        ∀ item ∈ items, ofJson item.toJson = item := by
      conv_lhs => rw [List.map_map, ← List.map_id items, List.map_map, List.map_eq_map_iff]
      rfl
    rw [toJson_tuple, ofJson_array, tuple.injEq, hitems, forall_mem_atoms_tuple]
    exact forall₂_congr ih

/-- Empty tuples are where they were if no atom is written as a value with one. -/
theorem hasEmptyTuple_ofJson_toJson {e : TypeExpr}
    (h : ∀ atom ∈ e.atoms, (ofJson atom.toJson).hasEmptyTuple = false) :
    (ofJson e.toJson).hasEmptyTuple = e.hasEmptyTuple := by
  induction e using TypeExpr.ind with
  | leaf name => rfl
  | literal text => exact h _ (List.mem_singleton_self _)
  | tuple items ih =>
    rw [forall_mem_atoms_tuple] at h
    have hany : ((items.map toJson).map ofJson).any hasEmptyTuple = items.any hasEmptyTuple := by
      rw [List.map_map, List.any_map, Bool.eq_iff_iff, List.any_eq_true, List.any_eq_true]
      refine exists_congr fun item => and_congr_right fun hitem => ?_
      rw [Function.comp_apply, Function.comp_apply, ih item hitem (h item hitem)]
    rw [toJson_tuple, ofJson_array, hasEmptyTuple_tuple, hasEmptyTuple_tuple, hany,
      List.isEmpty_map, List.isEmpty_map]

/-- A number is read from the value that it is written as exactly if its canonical text is read
back. -/
theorem ofJson_toJson_literal_iff {cs : List Char} {value : Json} (h : SpellsNumber cs value) :
    ofJson (literal value.compact).toJson = .literal value.compact ↔
      Legible (.literal value.compact) := by
  rw [toJson, literalValue]
  constructor
  · intro hread
    cases hparse : Json.parse? value.compact with
    | none =>
      rw [hparse] at hread
      cases hread
    | some found =>
      rw [hparse, Option.getD_some] at hread
      have hnumber : SpellsNumber value.compact.toList found :=
        ⟨hparse, h.numberText_compact.cases hparse⟩
      obtain ⟨n, rfl⟩ | ⟨x, rfl⟩ := hnumber.2
      · exact .number hnumber (literal.inj hread)
      · exact .number hnumber (literal.inj hread)
  · intro hlegible
    cases hlegible with
    | @number _ found hnumber hcanonical =>
      have hparse : Json.parse? value.compact = some found := hnumber.1
      rw [hparse, Option.getD_some, ← hcanonical]
      obtain ⟨n, rfl⟩ | ⟨x, rfl⟩ := hnumber.2
      · rfl
      · rfl

variable {text : String} {e : TypeExpr} (h : parse text = .ok e)
include h

/-- The atoms of what was read are names and the canonical texts of numbers. -/
theorem atom_of_parse {atom : TypeExpr} (hatom : atom ∈ e.atoms) :
    (∃ name, atom = .leaf name) ∨ ∃ body value, SpellsNumber body value ∧
      atom = .literal value.compact := by
  rcases leaf_or_literal_of_mem_atoms hatom with hname | ⟨literal, rfl⟩
  · exact .inl hname
  · obtain ⟨body, value, hnumber, rfl⟩ := literal_of_parse h hatom
    exact .inr ⟨body, value, hnumber, rfl⟩

/-- What was read is written as a value that is read as the same type exactly if the canonical texts
of its binary64 numbers are read back. -/
theorem ofJson_toJson_iff_of_parse :
    ofJson e.toJson = e ↔
      ∀ x, .literal (Json.double x).compact ∈ e.atoms →
        Legible (.literal (Json.double x).compact) := by
  rw [ofJson_toJson_iff]
  constructor
  · intro hall x hx
    rcases atom_of_parse h hx with ⟨name, heq⟩ | ⟨body, value, hnumber, heq⟩
    · cases heq
    · rw [heq]
      exact (ofJson_toJson_literal_iff hnumber).mp (heq ▸ hall _ hx)
  · intro hdoubles atom hatom
    rcases atom_of_parse h hatom with ⟨name, rfl⟩ | ⟨body, value, hnumber, rfl⟩
    · rfl
    · rw [ofJson_toJson_literal_iff hnumber]
      obtain ⟨n, rfl⟩ | ⟨x, rfl⟩ := hnumber.2
      · exact Notation.legible_of_integer hnumber
      · exact hdoubles x hatom

/-- What was read is written as a value that is read as the same type if its numbers are
integers. -/
theorem ofJson_toJson_of_parse (hintegral : e.Integral) : ofJson e.toJson = e := by
  refine (ofJson_toJson_iff_of_parse h).mpr fun x hx => ?_
  obtain ⟨n, heq⟩ := hintegral _ hx
  exact absurd heq (Json.compact_double_ne_compact_integer x n)

/-- What was read is written as a value that has the same empty tuples. -/
theorem hasEmptyTuple_ofJson_toJson_of_parse :
    (ofJson e.toJson).hasEmptyTuple = e.hasEmptyTuple := by
  refine hasEmptyTuple_ofJson_toJson fun atom hatom => ?_
  rcases atom_of_parse h hatom with ⟨name, rfl⟩ | ⟨body, value, hnumber, rfl⟩
  · rfl
  · rw [toJson, literalValue]
    cases hparse : Json.parse? value.compact with
    | none => rfl
    | some found =>
      obtain ⟨n, rfl⟩ | ⟨x, rfl⟩ := hnumber.numberText_compact.cases hparse
      · rfl
      · rfl

end TypeExpr

end TypeSieve
