import TypeSieve.Proofs.Model.SavedMethods

/-!
# Tidied methods

What saving a loaded method list gives, said about JSON values alone: each entry and each parameter
is an object with its own fields only, whichever notation it had. A list of parameters is there even
if the entry had none, a return type is there unless it is absent or null, and a default is there if
there was one, null included. All types and values in the fields are as they were.
-/

namespace TypeSieve

namespace Json

/-- Those fields that are there. -/
def present (fields : List (String × Option Json)) : List (String × Json) :=
  fields.filterMap fun field => field.2.map fun value => (field.1, value)

/-- The object of those fields that are there. -/
def ofFields (fields : List (String × Option Json)) : Json := .object (present fields)

/-- Change the items of an array. -/
def mapItems (f : Json → Json) : Json → Json
  | .array items => .array (items.map f)
  | value => value

/-- Change the members of an object, knowing their keys. -/
def mapMembers (f : String → Json → Json) : Json → Json
  | .object members => .object (members.map fun member => (member.1, f member.1 member.2))
  | value => value

/-- A parameter as an object of its fields. -/
def tidyParam (value : Json) : Json :=
  ofFields [("default", value.field? "default" 2), ("name", value.field? "name" 0),
    ("type", value.field? "type" 1)]

/-- A method entry as an object of its fields. -/
def tidyEntry (value : Json) : Json :=
  ofFields [("name", value.field? "name" 0),
    ("params", some (((value.field? "params" 1).getD (.array [])).mapItems tidyParam)),
    ("returns", (value.field? "returns" 2).filter fun type => decide (type ≠ .null))]

/-- Of fields in key order those that are there stand in key order. -/
theorem ascending_present {fields : List (String × Option Json)}
    (h : (fields.map Prod.fst).Pairwise (· < ·)) : Ascending (present fields) := by
  rw [List.pairwise_map] at h
  refine h.filterMap _ fun a b hlt x hx y hy => ?_
  obtain ⟨value, -, rfl⟩ := Option.map_eq_some_iff.mp hx
  obtain ⟨other, -, rfl⟩ := Option.map_eq_some_iff.mp hy
  exact hlt

end Json

namespace Param

/-- A parameter that is read is written in its tidied form. -/
theorem sorted_toJson_of_ofJson {value : Json} {p : Param} (hread : ofJson value = .ok p)
    (hplain : value.Plain Json.depthLimit) : p.toJson.sorted = value.tidyParam := by
  obtain ⟨name, type, rfl, hname, htype⟩ := exists_fields_of_ofJson hread
  have hsorted := Json.sorted_eq_self (hplain.field htype).ordered
  rw [toJson_ofFields name (hplain.field htype) (fun part hpart => hplain.field hpart) le_rfl,
    Json.sorted_object, Json.tidyParam, hname, htype]
  have hkeys : ["default", "name", "type"].Pairwise (· < ·) := by decide
  refine congrArg Json.object (Json.held_eq_of_perm ?_ (Json.ascending_present hkeys))
  cases hdefault : value.field? "default" 2 with
  | none =>
    simp only [fields, Option.map_none, Option.toList_none, List.append_nil,
      Json.sortedMembers, hsorted]
    exact List.Perm.refl _
  | some part =>
    have hpart := Json.sorted_eq_self (hplain.field hdefault).ordered
    simp only [fields, Option.map_some, Option.toList_some, List.cons_append, List.nil_append,
      Json.sortedMembers, hsorted, hpart]
    exact @List.perm_append_comm _ [_, _] [_]

/-- A list of parameters that is read is written with its items in their tidied form. -/
theorem sorted_toJson_of_listOfJson {list : Json} {params : List Param}
    (hread : listOfJson list = .ok params) (hplain : list.Plain Json.depthLimit) :
    (Json.array (params.map toJson)).sorted = list.mapItems Json.tidyParam := by
  obtain ⟨items, hitems, hread⟩ := bind_eq_ok_iff.mp hread
  obtain rfl := asArray_eq_ok_iff.mp hitems
  rw [Json.sorted, Json.sortedItems_eq_map, List.map_map]
  refine congrArg Json.array (map_eq_of_mapM_eq_ok hread fun item hitem p hp => ?_)
  exact sorted_toJson_of_ofJson hp (hplain.part hitem)

end Param

namespace Methods

/-- A return type that is read is written as it was. -/
theorem sorted_toJson_of_returnsOfJson {found : Option Json}
    (hplain : ∀ part ∈ found, part.Plain Json.depthLimit) :
    (found.bind returnsOfJson).map (fun type => type.toJson.sorted) =
      found.filter fun type => decide (type ≠ .null) := by
  cases found with
  | none => rfl
  | some part =>
    have hpart := hplain part rfl
    by_cases hnull : part = .null
    · subst hnull
      rfl
    · have hread := returnsOfJson_eq_some_iff.mpr ⟨hnull, rfl⟩
      rw [Option.bind_some, hread, Option.map_some, TypeExpr.toJson_ofJson hpart le_rfl,
        Json.sorted_eq_self hpart.ordered]
      simp [Option.filter, hnull]

/-- A method entry that is read is written in its tidied form. -/
theorem sorted_entryToJson_of_entryOfJson {value : Json} {entry : MethodEntry}
    (hread : entryOfJson value = .ok entry) (hplain : value.Plain Json.depthLimit) :
    (entryToJson entry).sorted = value.tidyEntry := by
  obtain ⟨hname, ⟨params, hparams, heq⟩, hreturns⟩ := exists_fields_of_entryOfJson hread
  have hlist : (Json.array (entry.1.params.map Param.toJson)).sorted =
      ((value.field? "params" 1).getD (.array [])).mapItems Json.tidyParam := by
    cases hfound : value.field? "params" 1 with
    | none =>
      rw [hfound] at hparams
      rw [heq, ← Except.ok.inj hparams]
      rfl
    | some list =>
      rw [hfound] at hparams
      obtain ⟨found, hlist, rfl⟩ := map_eq_ok_iff.mp hparams
      rw [heq]
      exact Param.sorted_toJson_of_listOfJson hlist (hplain.field hfound)
  have hreturned : ∀ part ∈ value.field? "returns" 2, part.Plain Json.depthLimit :=
    fun part => hplain.field
  have htype := sorted_toJson_of_returnsOfJson hreturned
  rw [← hreturns] at htype
  obtain ⟨⟨name, params⟩, returns⟩ := entry
  have hkeys : ["name", "params", "returns"].Pairwise (· < ·) := by decide
  change (Json.object (entryFields (⟨name, params⟩, returns))).sorted = _
  rw [Json.sorted_object, Json.tidyEntry, hname, ← hlist, ← htype]
  refine congrArg Json.object (Json.held_eq_of_perm ?_ (Json.ascending_present hkeys))
  cases returns with
  | none => exact List.Perm.refl _
  | some type => exact List.Perm.refl _

/-- A method list that is read is written with its entries in their tidied form. -/
theorem sorted_toJson_of_ofJson {value : Json} {m : Methods} (hread : ofJson value = .ok m)
    (hplain : value.Plain Json.depthLimit) : m.toJson.sorted = value.mapItems Json.tidyEntry := by
  obtain ⟨items, hitems, hread⟩ := bind_eq_ok_iff.mp hread
  obtain ⟨entries, hentries, hmethods⟩ := bind_eq_ok_iff.mp hread
  obtain rfl := asArray_eq_ok_iff.mp hitems
  rw [toJson, (ofEntries_eq_ok_iff entries m).mp (mapError_eq_ok_iff.mp hmethods), Json.sorted,
    Json.sortedItems_eq_map, List.map_map]
  refine congrArg Json.array (map_eq_of_mapM_eq_ok hentries fun item hitem entry hentry => ?_)
  exact sorted_entryToJson_of_entryOfJson hentry (hplain.part hitem)

end Methods

end TypeSieve
