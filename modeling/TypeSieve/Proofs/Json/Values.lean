import TypeSieve.Proofs.Dict
import TypeSieve.Proofs.Json.Integers
import TypeSieve.Proofs.Json.Literals

/-!
# Values and their syntax trees

A value has one syntax tree, the one that its text spells. Reading the tree gives the value back up
to the order of members, if the value has no binary64 number, keeps its integers to 64 bits and does
not nest too deep: a reader holds the members of an object in key order.
-/

namespace TypeSieve.Json

/-- Induction on a value, with the items of arrays and the members of objects at hand. -/
@[elab_as_elim]
theorem ind {motive : Json → Prop} (null : motive .null) (bool : ∀ value, motive (.bool value))
    (integer : ∀ n, motive (.integer n)) (double : ∀ x, motive (.double x))
    (string : ∀ text, motive (.string text))
    (array : ∀ items, (∀ item ∈ items, motive item) → motive (.array items))
    (object : ∀ members, (∀ member ∈ members, motive member.2) → motive (.object members))
    (value : Json) : motive value :=
  @Json.rec motive (fun items => ∀ item ∈ items, motive item)
    (fun members => ∀ member ∈ members, motive member.2) (fun member => motive member.2)
    null bool integer double string array object
    (fun _ hmem => nomatch hmem) (fun _ _ hitem hrest => List.forall_mem_cons.mpr ⟨hitem, hrest⟩)
    (fun _ hmem => nomatch hmem)
      (fun _ _ hmember hrest => List.forall_mem_cons.mpr ⟨hmember, hrest⟩)
    (fun _ _ hvalue => hvalue) value

mutual

/-- A value without binary64 numbers, with integers of 64 bits, in which arrays and objects nest at
most `depth` deep. -/
def Exact (depth : Nat) : Json → Prop
  | .null | .bool _ | .string _ => True
  | .integer n => InWord n
  | .double _ => False
  | .array items =>
    match depth with
    | 0 => False
    | inner + 1 => ExactItems inner items
  | .object members =>
    match depth with
    | 0 => False
    | inner + 1 => ExactMembers inner members

/-- All items of a list are exact. -/
def ExactItems (depth : Nat) : List Json → Prop
  | [] => True
  | item :: rest => Exact depth item ∧ ExactItems depth rest

/-- The values of all members of a list are exact. -/
def ExactMembers (depth : Nat) : List (String × Json) → Prop
  | [] => True
  | (_, value) :: rest => Exact depth value ∧ ExactMembers depth rest

end

mutual

/-- A value in which the members of every object stand in strictly ascending key order. -/
def Ordered : Json → Prop
  | .array items => OrderedItems items
  | .object members => Ascending members ∧ OrderedMembers members
  | _ => True

/-- All items of a list are ordered. -/
def OrderedItems : List Json → Prop
  | [] => True
  | item :: rest => Ordered item ∧ OrderedItems rest

/-- The values of all members of a list are ordered. -/
def OrderedMembers : List (String × Json) → Prop
  | [] => True
  | (_, value) :: rest => Ordered value ∧ OrderedMembers rest

end

mutual

/-- The value as a reader holds it: the members of every object in key order, each key with its last
value. -/
def sorted : Json → Json
  | .array items => .array (sortedItems items)
  | .object members => .object (canonicalEntries (sortedMembers members))
  | value => value

/-- The items of a list as a reader holds them. -/
def sortedItems : List Json → List Json
  | [] => []
  | item :: rest => sorted item :: sortedItems rest

/-- The members of a list as a reader holds their values. -/
def sortedMembers : List (String × Json) → List (String × Json)
  | [] => []
  | (key, value) :: rest => (key, sorted value) :: sortedMembers rest

end

mutual

/-- The syntax tree that the text of a value spells. -/
def form : Json → Form
  | .null => .null
  | .bool value => .bool value
  | .integer n => .numeral (.ofInt n)
  | .double x => .numeral ((Numeral.ofChars? (doubleChars x)).getD (.ofInt 0))
  | .string text => .text (piecesOf text)
  | .array items => .array (formItems items)
  | .object members => .object (formMembers members)

/-- The trees of the items of a list. -/
def formItems : List Json → List Form
  | [] => []
  | item :: rest => form item :: formItems rest

/-- The trees of the members of a list. -/
def formMembers : List (String × Json) → List (List Piece × Form)
  | [] => []
  | (key, value) :: rest => (piecesOf key, form value) :: formMembers rest

end

/-- Items are exact one by one. -/
theorem exactItems_iff (depth : Nat) (items : List Json) :
    ExactItems depth items ↔ ∀ item ∈ items, Exact depth item := by
  induction items with
  | nil => simp [ExactItems]
  | cons item rest ih => simp [ExactItems, ih]

/-- Members are exact one by one. -/
theorem exactMembers_iff (depth : Nat) (members : List (String × Json)) :
    ExactMembers depth members ↔ ∀ member ∈ members, Exact depth member.2 := by
  induction members with
  | nil => simp [ExactMembers]
  | cons member rest ih => simp only [ExactMembers, ih, List.forall_mem_cons]

/-- An array is exact exactly when it may nest and its items are exact one level deeper. -/
theorem exact_array_iff (depth : Nat) (items : List Json) :
    Exact depth (.array items) ↔ ∃ inner, depth = inner + 1 ∧ ∀ item ∈ items, Exact inner item := by
  cases depth with
  | zero => simp [Exact]
  | succ inner => simp [Exact, exactItems_iff]

/-- An object is exact exactly when it may nest and its values are exact one level deeper. -/
theorem exact_object_iff (depth : Nat) (members : List (String × Json)) :
    Exact depth (.object members) ↔
      ∃ inner, depth = inner + 1 ∧ ∀ member ∈ members, Exact inner member.2 := by
  cases depth with
  | zero => simp [Exact]
  | succ inner => simp [Exact, exactMembers_iff]

/-- Items are ordered one by one. -/
theorem orderedItems_iff (items : List Json) :
    OrderedItems items ↔ ∀ item ∈ items, Ordered item := by
  induction items with
  | nil => simp [OrderedItems]
  | cons item rest ih => simp [OrderedItems, ih]

/-- Members are ordered one by one. -/
theorem orderedMembers_iff (members : List (String × Json)) :
    OrderedMembers members ↔ ∀ member ∈ members, Ordered member.2 := by
  induction members with
  | nil => simp [OrderedMembers]
  | cons member rest ih => simp only [OrderedMembers, ih, List.forall_mem_cons]

/-- An array is ordered exactly when its items are. -/
theorem ordered_array_iff (items : List Json) :
    Ordered (.array items) ↔ ∀ item ∈ items, Ordered item := by
  rw [Ordered, orderedItems_iff]

/-- An object is ordered exactly when its keys ascend and its values are ordered. -/
theorem ordered_object_iff (members : List (String × Json)) :
    Ordered (.object members) ↔ Ascending members ∧ ∀ member ∈ members, Ordered member.2 := by
  rw [Ordered, orderedMembers_iff]

/-- Items are sorted one by one. -/
theorem sortedItems_eq_map (items : List Json) : sortedItems items = items.map sorted := by
  induction items with
  | nil => rfl
  | cons item rest ih => rw [sortedItems, ih, List.map_cons]

/-- Members are sorted one by one. -/
theorem sortedMembers_eq_map (members : List (String × Json)) :
    sortedMembers members = members.map fun member => (member.1, member.2.sorted) := by
  induction members with
  | nil => rfl
  | cons member rest ih => rw [sortedMembers, ih, List.map_cons]

/-- Items have their trees one by one. -/
theorem formItems_eq_map (items : List Json) : formItems items = items.map form := by
  induction items with
  | nil => rfl
  | cons item rest ih => rw [formItems, ih, List.map_cons]

/-- Members have their trees one by one. -/
theorem formMembers_eq_map (members : List (String × Json)) :
    formMembers members = members.map fun member => (piecesOf member.1, member.2.form) := by
  induction members with
  | nil => rfl
  | cons member rest ih => rw [formMembers, ih, List.map_cons]

/-- An ordered value is held as it is. -/
theorem sorted_eq_self {value : Json} (h : value.Ordered) : value.sorted = value := by
  induction value using Json.ind with
  | null => rfl
  | bool value => rfl
  | integer n => rfl
  | double x => rfl
  | string text => rfl
  | array items ih =>
    rw [ordered_array_iff] at h
    rw [sorted, sortedItems_eq_map,
      List.map_congr_left fun item hitem => ih item hitem (h item hitem), List.map_id']
  | object members ih =>
    obtain ⟨hascending, hvalues⟩ := (ordered_object_iff members).mp h
    have hmap : members.map (fun member => (member.1, member.2.sorted)) = members := by
      rw [List.map_congr_left fun member hmember => by
        rw [ih member hmember (hvalues member hmember)]]
      exact List.map_id' members
    rw [sorted, sortedMembers_eq_map, hmap, canonicalEntries_eq_self hascending]

/-- More depth is no hindrance. -/
theorem Exact.mono {value : Json} {depth more : Nat} (h : value.Exact depth) (hle : depth ≤ more) :
    value.Exact more := by
  induction value using Json.ind generalizing depth more with
  | null => trivial
  | bool value => trivial
  | integer n => exact h
  | double x => exact h
  | string text => trivial
  | array items ih =>
    obtain ⟨inner, rfl, hitems⟩ := (exact_array_iff depth items).mp h
    rw [exact_array_iff]
    exact ⟨more - 1, by omega, fun item hitem => ih item hitem (hitems item hitem) (by omega)⟩
  | object members ih =>
    obtain ⟨inner, rfl, hvalues⟩ := (exact_object_iff depth members).mp h
    rw [exact_object_iff]
    exact ⟨more - 1, by omega, fun member hmember =>
      ih member hmember (hvalues member hmember) (by omega)⟩

end TypeSieve.Json
