import TypeSieve.Proofs.Json.ReadBack
import TypeSieve.TypeExpr.Basic

/-!
# Types in JSON

A plain value that is read as a type is written again as it was: names and tuples stand for
themselves, and a literal keeps the compact text of its value, which is read back. Different plain
values are read as different types, however deep they nest.
-/

namespace TypeSieve

/-- A value that is neither a string nor an array. -/
def Json.IsLiteral : Json → Prop
  | .string _ | .array _ => False
  | _ => True

namespace TypeExpr

/-- Only a string is read as a name. -/
theorem ofJson_eq_leaf_iff (value : Json) (name : String) :
    ofJson value = .leaf name ↔ value = .string name := by
  cases value <;> simp [ofJson]

/-- Values that are neither strings nor arrays are read as literals, with their compact texts. -/
theorem ofJson_eq_literal_iff (value : Json) (text : String) :
    ofJson value = .literal text ↔ value.IsLiteral ∧ value.compact = text := by
  cases value <;> simp [ofJson, Json.IsLiteral]

/-- Only an array is read as a tuple, item by item. -/
theorem ofJson_eq_tuple_iff (value : Json) (types : List TypeExpr) :
    ofJson value = .tuple types ↔ ∃ items, value = .array items ∧ items.map ofJson = types := by
  cases value <;> simp [ofJson, ofJsonItems_eq_map]

/-- The compact text of a plain value stands for the value. -/
theorem literalValue_compact {value : Json} {depth : Nat} (h : value.Plain depth)
    (hle : depth ≤ Json.depthLimit) : literalValue value.compact = value := by
  rw [literalValue, h.parse?_compact hle]
  rfl

/-- A type that was read from a plain value is written as this value. -/
theorem toJson_ofJson {value : Json} {depth : Nat} (h : value.Plain depth)
    (hle : depth ≤ Json.depthLimit) : (ofJson value).toJson = value := by
  induction value using Json.ind generalizing depth with
  | null => exact literalValue_compact h hle
  | bool value => exact literalValue_compact h hle
  | integer n => exact literalValue_compact h hle
  | double x => exact literalValue_compact h hle
  | string text => rfl
  | array items ih =>
    cases depth with
    | zero => exact absurd h.exact (by simp [Json.Exact])
    | succ inner =>
      have hitems : ∀ item ∈ items, (ofJson item).toJson = item := fun item hitem =>
        ih item hitem (h.items hitem) (by omega)
      rw [ofJson, toJson, ofJsonItems_eq_map, toJsonItems_eq_map, List.map_map]
      exact congrArg Json.array ((List.map_congr_left hitems).trans (List.map_id' items))
  | object members ih => exact literalValue_compact h hle

/-- Plain values that are read as the same type are equal. -/
theorem ofJson_inj {a b : Json} {depth more : Nat} (ha : a.Plain depth) (hb : b.Plain more)
    (h : ofJson a = ofJson b) : a = b := by
  induction a using Json.ind generalizing b with
  | string text => exact ((ofJson_eq_leaf_iff b text).mp h.symm).symm
  | array items ih =>
    obtain ⟨others, rfl, hothers⟩ := (ofJson_eq_tuple_iff b _).mp h.symm
    rw [ofJsonItems_eq_map] at hothers
    have hitems : ∀ item ∈ items, ∀ other ∈ others, ofJson item = ofJson other ↔ item = other :=
      fun item hitem other hother =>
        ⟨ih item hitem (ha.part hitem) (hb.part hother), congrArg ofJson⟩
    have hsame := (map_eq_map_iff_forall₂ hitems).mp hothers.symm
    rw [List.forall₂_eq_eq_eq] at hsame
    rw [hsame]
  | null | bool value | integer n | double x | object members ih =>
    obtain ⟨-, hcompact⟩ := (ofJson_eq_literal_iff b _).mp h.symm
    exact ha.compact_inj hb hcompact.symm

/-- A loaded type is written as a plain value and is read back. -/
theorem plain_toJson {e : TypeExpr} {depth : Nat} (h : Json.Loaded depth ofJson e)
    (hle : depth ≤ Json.depthLimit) : e.toJson.Plain depth ∧ ofJson e.toJson = e := by
  obtain ⟨value, hplain, hread⟩ := h
  rw [← hread, toJson_ofJson hplain hle]
  exact ⟨hplain, rfl⟩

end TypeExpr

end TypeSieve
