import TypeSieve.Proofs.Json.RoundTrip
import TypeSieve.Proofs.Outcome

/-!
# Reading back what is written

What a reader makes of a plain value is loaded, and a written value is read back if a reader makes
of it, with the members of objects in key order, what was written. The parts of a plain value are
plain one level deeper, and a key of a written object finds what was written under it.
-/

namespace TypeSieve.Json

variable {α ε : Type} {depth : Nat}

/-- The items of an array or the values in an object. -/
def parts : Json → List Json
  | .array items => items
  | .object members => members.map Prod.snd
  | _ => []

/-- The value is an array whose items have a property. -/
def IsListOf (P : Json → Prop) : Json → Prop
  | .array items => ∀ item ∈ items, P item
  | _ => False

/-- The parts of a plain value are plain. -/
theorem Plain.parts {value part : Json} (h : value.Plain (depth + 1)) (hpart : part ∈ value.parts) :
    part.Plain depth := by
  cases value with
  | array items => exact h.items hpart
  | object members =>
    obtain ⟨member, hmember, rfl⟩ := List.mem_map.mp hpart
    exact h.members hmember
  | null | bool _ | integer _ | double _ | string _ => cases hpart

/-- The parts of a plain value are plain in the same depth all the more. -/
theorem Plain.part {value part : Json} (h : value.Plain depth) (hpart : part ∈ value.parts) :
    part.Plain depth := by
  cases depth with
  | zero =>
    cases value with
    | array items => exact absurd h.exact (by simp [Exact])
    | object members => exact absurd h.exact (by simp [Exact])
    | null | bool _ | integer _ | double _ | string _ => cases hpart
  | succ inner =>
    have hinner := h.parts hpart
    exact ⟨hinner.exact.mono (Nat.le_succ inner), hinner.ordered⟩

/-- What a key of an object finds is a part of it. -/
theorem mem_parts_of_findEntry {key : String} {value : Json} {members : List (String × Json)}
    (h : findEntry key members = some value) : value ∈ (Json.object members).parts :=
  List.mem_map.mpr ⟨(key, value), mem_of_findEntry h, rfl⟩

/-- A field of a record that is an object or the list of its fields in order. -/
def field? (key : String) (position : Nat) : Json → Option Json
  | .object members => findEntry key members
  | .array fields => fields[position]?
  | _ => none

/-- A field is a part of its record. -/
theorem mem_parts_of_field? {key : String} {position : Nat} {value part : Json}
    (h : value.field? key position = some part) : part ∈ value.parts := by
  cases value with
  | array fields => exact List.mem_of_getElem? h
  | object members => exact mem_parts_of_findEntry h
  | null | bool _ | integer _ | double _ | string _ => cases h

/-- The fields of a plain record are plain. -/
theorem Plain.field {key : String} {position : Nat} {value part : Json} (h : value.Plain depth)
    (hpart : value.field? key position = some part) : part.Plain depth :=
  h.part (mem_parts_of_field? hpart)

/-- The members of an object as a reader holds them. -/
def held (members : List (String × Json)) : List (String × Json) :=
  canonicalEntries (sortedMembers members)

/-- A written object is held with its members in key order. -/
theorem sorted_object (members : List (String × Json)) :
    (Json.object members).sorted = .object (held members) := rfl

/-- The members that are held have ascending keys. -/
theorem ascending_held (members : List (String × Json)) : Ascending (held members) :=
  ascending_canonicalEntries _

/-- A key finds what was written under it. -/
theorem findEntry_held {members : List (String × Json)} (hkeys : (members.map Prod.fst).Nodup)
    (key : String) : findEntry key (held members) = (findEntry key members).map sorted := by
  have hfst : (sortedMembers members).map Prod.fst = members.map Prod.fst := by
    rw [sortedMembers_eq_map, List.map_map]
    rfl
  rw [held, findEntry_canonicalEntries_of_nodup (hfst ▸ hkeys), sortedMembers_eq_map]
  exact findEntry_map key members fun _ value => value.sorted

/-- The members that are held are those with ascending keys under which the same is found. -/
theorem held_eq {members result : List (String × Json)} (hkeys : (members.map Prod.fst).Nodup)
    (hascending : Ascending result)
    (h : ∀ key, (findEntry key members).map sorted = findEntry key result) :
    held members = result := by
  refine (ascending_held members).eq_of_findEntry_eq hascending fun key => ?_
  rw [findEntry_held hkeys, h key]

/-- The members that are held are those in key order with their values as they are held. -/
theorem held_eq_of_perm {members result : List (String × Json)}
    (hperm : (sortedMembers members).Perm result) (hascending : Ascending result) :
    held members = result := by
  have hkeys : ((sortedMembers members).map Prod.fst).Nodup :=
    (hperm.map Prod.fst).nodup_iff.mpr hascending.nodup_keys
  refine (ascending_held members).eq_of_findEntry_eq hascending fun key =>
    Option.ext fun value => ?_
  rw [held, findEntry_canonicalEntries_of_nodup hkeys, findEntry_eq_some_iff hkeys,
    findEntry_eq_some_iff hascending.nodup_keys, hperm.mem_iff]

/-- A written dictionary is held with the values as they are held. -/
theorem sorted_ofDict (d : Dict Json) :
    (ofDict d).sorted = ofDict (d.map fun _ value => value.sorted) := by
  rw [ofDict, sorted, sortedMembers_eq_map]
  exact congrArg Json.object
    (canonicalEntries_eq_self (d.map fun _ value => value.sorted).ascending)

/-- A dictionary of exact values is written as an exact value. -/
theorem exact_ofDict {d : Dict Json} (h : ∀ member ∈ d.entries, member.2.Exact depth) :
    (ofDict d).Exact (depth + 1) := by
  rw [ofDict, exact_object_iff]
  exact ⟨depth, rfl, h⟩

/-- A dictionary of plain values is written as a plain value. -/
theorem plain_ofDict {d : Dict Json} (h : ∀ member ∈ d.entries, member.2.Plain depth) :
    (ofDict d).Plain (depth + 1) := by
  refine ⟨exact_ofDict fun member hmember => (h member hmember).exact, ?_⟩
  rw [ofDict, ordered_object_iff]
  exact ⟨d.ascending, fun member hmember => (h member hmember).ordered⟩

/-- Read a member of an object. -/
def Form.readMember {α : Type} (read : Form → Option α) (member : List Piece × Form) :
    Option (String × α) := do
  let name ← decodeText member.1
  let value ← read member.2
  return (name, value)

/-- A member is read exactly when its key and its value are. -/
theorem Form.readMember_eq_some_iff {α : Type} {read : Form → Option α} {member : List Piece × Form}
    {entry : String × α} :
    readMember read member = some entry ↔
      decodeText member.1 = some entry.1 ∧ read member.2 = some entry.2 := by
  obtain ⟨name, a⟩ := entry
  simp [readMember, Option.bind_eq_some_iff]

/-- The tree of an object has its members in the order of the object. -/
theorem members?_form {read : Nat → Form → Option α} (result : Json → α)
    {members : List (String × Json)}
    (h : ∀ member ∈ members, read depth member.2.form = some (result member.2)) :
    (Json.object members).form.members? read (depth + 1) =
      some (.ok (members.map fun member => (member.1, result member.2))) := by
  have hmember : ∀ member ∈ members,
      Form.readMember (read depth) (piecesOf member.1, member.2.form) =
      some (member.1, result member.2) := fun member hmember =>
    Form.readMember_eq_some_iff.mpr ⟨decodeText_piecesOf member.1, h member hmember⟩
  rw [form, Form.members?, formMembers_eq_map, List.mapM_map]
  exact Option.bind_eq_some_iff.mpr ⟨_, mapM_eq_some hmember, rfl⟩

/-- Some plain value of a depth is read as this. -/
def Loaded (depth : Nat) (read : Json → α) (result : α) : Prop :=
  ∃ value : Json, value.Plain depth ∧ read value = result

/-- A written value is exact and is read back. -/
structure ReadBack (depth : Nat) (read : Json → Except ε α) (written : Json)
    (original : α) : Prop where
  exact : written.Exact depth
  read : read written.sorted = .ok original

/-- A written list is exact and is read back if its items are. -/
theorem readBack_array {read : Json → Except ε α} {write : α → Json} {xs : List α}
    (h : ∀ x ∈ xs, ReadBack depth read (write x) x) :
    (Json.array (xs.map write)).Exact (depth + 1) ∧
      (sortedItems (xs.map write)).mapM read = .ok xs := by
  constructor
  · rw [exact_array_iff]
    refine ⟨depth, rfl, fun item hitem => ?_⟩
    obtain ⟨x, hx, rfl⟩ := List.mem_map.mp hitem
    exact (h x hx).exact
  · rw [sortedItems_eq_map, List.map_map]
    exact mapM_map_eq_ok fun x hx => (h x hx).read

end TypeSieve.Json
