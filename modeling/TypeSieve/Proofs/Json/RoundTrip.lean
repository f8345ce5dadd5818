import TypeSieve.Proofs.Json.Printing

/-!
# Reading printed values

The tree that a value spells has that value, with the members of every object in key order. So a
value without binary64 numbers is read back from its compact text, and as it is if its members stand
in key order already.
-/

namespace TypeSieve.Json

/-- The trees of items have the values of the items. -/
theorem values_formItems {depth : Nat} {items : List Json}
    (h : ∀ item ∈ items, item.form.value depth = some item.sorted) :
    Form.values depth (formItems items) = some (sortedItems items) := by
  induction items with
  | nil => rfl
  | cons item rest ih =>
    obtain ⟨hitem, hrest⟩ := List.forall_mem_cons.mp h
    rw [formItems, Form.values, hitem, ih hrest]
    rfl

/-- The trees of members have the names and the values of the members. -/
theorem memberValues_formMembers {depth : Nat} {members : List (String × Json)}
    (h : ∀ member ∈ members, member.2.form.value depth = some member.2.sorted) :
    Form.memberValues depth (formMembers members) = some (sortedMembers members) := by
  induction members with
  | nil => rfl
  | cons member rest ih =>
    obtain ⟨hmember, hrest⟩ := List.forall_mem_cons.mp h
    rw [formMembers, Form.memberValues, decodeText_piecesOf, hmember, ih hrest]
    rfl

/-- The tree of an exact value has the value, in key order. -/
theorem value_form {value : Json} {depth : Nat} (h : value.Exact depth) :
    value.form.value depth = some value.sorted := by
  induction value using Json.ind generalizing depth with
  | null => rfl
  | bool value => rfl
  | integer n => exact value_ofInt h
  | double x => exact absurd h (by simp [Exact])
  | string text =>
    rw [form, Form.value, decodeText_piecesOf]
    rfl
  | array items ih =>
    obtain ⟨inner, rfl, hitems⟩ := (exact_array_iff depth items).mp h
    have hvalues := values_formItems fun item hitem => ih item hitem (hitems item hitem)
    rw [form, Form.value, hvalues, sorted, Option.map_some]
  | object members ih =>
    obtain ⟨inner, rfl, hmembers⟩ := (exact_object_iff depth members).mp h
    have hvalues := memberValues_formMembers fun member hmember =>
      ih member hmember (hmembers member hmember)
    rw [form, Form.value, hvalues, sorted, Option.map_some]

/-- The compact text of an exact value is read as the value, in key order. -/
theorem parse?_compact {value : Json} (h : value.Exact depthLimit) :
    parse? value.compact = some value.sorted := by
  rw [parse?, compact, String.toList_ofList, ofChars?, ofChars?_compactChars h, Option.bind_some,
    value_form h]

/-- A value as a reader holds it, with integers of 64 bits for numbers, in which arrays and objects
nest at most `depth` deep. -/
structure Plain (depth : Nat) (value : Json) : Prop where
  exact : value.Exact depth
  ordered : value.Ordered

namespace Plain

variable {depth : Nat}

/-- The items of a plain array are plain. -/
theorem items {items : List Json} (h : (Json.array items).Plain (depth + 1)) {item : Json}
    (hitem : item ∈ items) : item.Plain depth := by
  obtain ⟨inner, hinner, hitems⟩ := (exact_array_iff _ _).mp h.exact
  obtain rfl : depth = inner := by omega
  exact ⟨hitems item hitem, (ordered_array_iff _).mp h.ordered item hitem⟩

/-- The keys of a plain object ascend. -/
theorem ascending {members : List (String × Json)} (h : (Json.object members).Plain depth) :
    Ascending members := ((ordered_object_iff members).mp h.ordered).1

/-- The values in a plain object are plain. -/
theorem members {members : List (String × Json)} (h : (Json.object members).Plain (depth + 1))
    {member : String × Json} (hmember : member ∈ members) : member.2.Plain depth := by
  obtain ⟨inner, hinner, hmembers⟩ := (exact_object_iff _ _).mp h.exact
  obtain rfl : depth = inner := by omega
  exact ⟨hmembers member hmember, ((ordered_object_iff members).mp h.ordered).2 member hmember⟩

/-- A plain value is what its compact text is read as. -/
theorem parse?_compact {value : Json} (h : value.Plain depth) (hle : depth ≤ depthLimit) :
    parse? value.compact = some value := by
  rw [Json.parse?_compact (h.exact.mono hle), sorted_eq_self h.ordered]

/-- Plain values with the same compact text are equal, however deep they nest. -/
theorem compact_inj {a b : Json} {more : Nat} (ha : a.Plain depth) (hb : b.Plain more)
    (h : a.compact = b.compact) : a = b := by
  have hform : a.form = b.form := by
    have hread := ofChars?_compactChars ha.exact
    rw [String.ofList_injective h, ofChars?_compactChars hb.exact] at hread
    exact (Option.some.inj hread).symm
  -- The tree that both texts spell has one value, at a depth that is enough for either.
  have hvalue := value_form (ha.exact.mono (Nat.le_max_left depth more))
  rw [hform, value_form (hb.exact.mono (Nat.le_max_right depth more))] at hvalue
  rw [← sorted_eq_self ha.ordered, ← sorted_eq_self hb.ordered, Option.some.inj hvalue]

end Plain

end TypeSieve.Json
