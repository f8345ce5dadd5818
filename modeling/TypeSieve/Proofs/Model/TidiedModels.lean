import TypeSieve.Proofs.Model.SavedModels
import TypeSieve.Proofs.Model.Tidied

/-!
# Tidied models

What loading a model and saving it gives is the value that it was loaded from with its method lists
tidied. Values with binary64 numbers are left out, since what the text of such a number is read as
need not be the number.
-/

namespace TypeSieve

namespace Json

/-- A member of a class as it is saved: the methods are tidied and all else stays. -/
def tidyMember (key : String) (part : Json) : Json :=
  if key = "methods" then part.mapItems tidyEntry else part

/-- A descriptor as it is saved. Only that of a class, which has attributes and methods, changes. -/
def tidyDescriptor (value : Json) : Json :=
  if (value.member? "attrs").isSome && (value.member? "methods").isSome then
    value.mapMembers tidyMember
  else value

/-- A model as it is saved. -/
def tidyModel (value : Json) : Json :=
  value.mapMembers fun _ module => module.mapMembers fun _ descriptor => descriptor.tidyDescriptor

/-- A dictionary that is read from the members of an object is written as the object with the tidied
values if each member is. -/
theorem sorted_ofDict_of_mapM {α ε : Type} {read : String × Json → Except ε (String × α)}
    {write : α → Json} {tidy : Json → Json} {members : List (String × Json)}
    {entries : List (String × α)}
    (hmembers : Ascending members) (hread : members.mapM read = .ok entries)
    (h : ∀ member ∈ members, ∀ entry, read member = .ok entry →
      entry.1 = member.1 ∧ (write entry.2).sorted = tidy member.2) :
    (ofDict ((Dict.ofList entries).map fun _ a => write a)).sorted =
      (Json.object members).mapMembers fun _ part => tidy part := by
  have hkeys : entries.map Prod.fst = members.map Prod.fst :=
    map_eq_of_mapM_eq_ok hread fun member hmember entry hentry => (h member hmember entry hentry).1
  have hentries : Ascending entries := by
    refine List.pairwise_map.mp ?_
    rw [hkeys]
    exact List.pairwise_map.mpr hmembers
  have hvalues : entries.map (fun entry => (entry.1, (write entry.2).sorted)) =
      members.map fun member => (member.1, tidy member.2) := by
    refine map_eq_of_mapM_eq_ok hread fun member hmember entry hentry => ?_
    obtain ⟨hkey, hvalue⟩ := h member hmember entry hentry
    rw [hkey, hvalue]
  rw [sorted_ofDict, Dict.map_map, mapMembers, ← hvalues]
  change Json.object ((canonicalEntries entries).map _) = _
  rw [canonicalEntries_eq_self hentries]

end Json

namespace ClassDescription

/-- Attributes that are read are written as they were. -/
theorem sorted_attrs_of_attrsOfJson {value : Json} {attrs : Dict TypeExpr}
    (hread : attrsOfJson value = .ok attrs) (hplain : value.Plain Json.depthLimit) :
    (Json.ofDict (attrs.map fun _ type => type.toJson)).sorted = value := by
  obtain ⟨members, hmembers, hread⟩ := bind_eq_ok_iff.mp hread
  obtain rfl := Except.ok.inj hread
  obtain rfl := asObject_eq_ok_iff.mp hmembers
  have hback : ∀ member ∈ members, (member.1, (TypeExpr.ofJson member.2).toJson) = member := by
    intro member hmember
    rw [TypeExpr.toJson_ofJson (hplain.part (List.mem_map_of_mem hmember)) le_rfl]
  have hvalue : Json.ofDict ((Dict.ofList (members.map fun member =>
      (member.1, TypeExpr.ofJson member.2))).map fun _ type => type.toJson) = .object members := by
    change Json.object ((canonicalEntries (members.map _)).map _) = _
    rw [canonicalEntries_eq_self (hplain.ascending.map fun _ => TypeExpr.ofJson), List.map_map]
    exact congrArg Json.object ((List.map_congr_left hback).trans (List.map_id' members))
  rw [hvalue]
  exact Json.sorted_eq_self hplain.ordered

/-- A class that is read is written with its methods tidied. -/
theorem sorted_toJson_of_ofMembers {attrs methods : Json} {members : List (String × Json)}
    {c : ClassDescription} (hread : ofMembers attrs methods members = .ok c)
    (hplain : (Json.object members).Plain Json.depthLimit)
    (hattrs : findEntry "attrs" members = some attrs)
    (hmethods : findEntry "methods" members = some methods) :
    c.toJson.sorted = (Json.object members).mapMembers Json.tidyMember := by
  have hfield : ∀ {key part}, findEntry key members = some part → part.Plain Json.depthLimit :=
    fun hpart => hplain.part (Json.mem_parts_of_findEntry hpart)
  have hlimit : Json.depthLimit = 122 + 5 := rfl
  have hloaded := loaded_of_ofMembers hread (hlimit ▸ hplain) hattrs hmethods
  obtain ⟨htypes, hm, hname, hextra⟩ := parts_of_ofMembers hread
  change (Json.object c.fields).sorted = _
  rw [Json.sorted_object]
  refine congrArg Json.object
    (Json.held_eq hloaded.nodup_fields (hplain.ascending.map _) fun key => ?_)
  rw [findEntry_map]
  by_cases hown : key ∈ ownFields
  · simp only [ownFields, List.mem_cons, List.not_mem_nil, or_false] at hown
    rcases hown with rfl | rfl | rfl
    · rw [hname]
      rfl
    · rw [hattrs]
      exact congrArg some (sorted_attrs_of_attrsOfJson htypes (hfield hattrs))
    · rw [hmethods]
      exact congrArg some (Methods.sorted_toJson_of_ofJson hm (hfield hmethods))
  · have hothers : findEntry key c.extra.entries = findEntry key members := by
      have hascending : Ascending (members.filter fun member => !ownFields.contains member.1) :=
        List.Pairwise.filter _ hplain.ascending
      rw [hextra]
      refine (congrArg (findEntry key) (canonicalEntries_eq_self hascending)).trans ?_
      exact findEntry_filter (fun key => !ownFields.contains key) (by simpa using hown) members
    rw [findEntry_fields hown, hothers]
    cases hfound : findEntry key members with
    | none => rfl
    | some part =>
      have hmethods : key ≠ "methods" := fun heq => hown (by simp [heq, ownFields])
      simp [Json.tidyMember, hmethods, Json.sorted_eq_self (hfield hfound).ordered]

end ClassDescription

namespace Descriptor

/-- A descriptor that is read is written in its tidied form. -/
theorem sorted_toJson_of_ofJson {value : Json} {d : Descriptor} (hread : ofJson value = .ok d)
    (hplain : value.Plain Json.depthLimit) : d.toJson.sorted = value.tidyDescriptor := by
  have hsorted := Json.sorted_eq_self hplain.ordered
  unfold ofJson at hread
  split at hread
  · next members =>
    split at hread
    · next attrs methods hattrs hmethods =>
      obtain ⟨c, hc, rfl⟩ := map_eq_ok_iff.mp hread
      rw [Json.tidyDescriptor, if_pos (by simp [Json.member?, hattrs, hmethods])]
      exact ClassDescription.sorted_toJson_of_ofMembers hc hplain hattrs hmethods
    · next hshape =>
      obtain rfl := Except.ok.inj hread
      have hclass : ¬ (((Json.object members).member? "attrs").isSome &&
          ((Json.object members).member? "methods").isSome) = true := by
        intro hboth
        obtain ⟨hattrs, hmethods⟩ := Bool.and_eq_true_iff.mp hboth
        obtain ⟨attrs, hattrs⟩ := Option.isSome_iff_exists.mp hattrs
        obtain ⟨methods, hmethods⟩ := Option.isSome_iff_exists.mp hmethods
        exact hshape attrs methods hattrs hmethods
      rw [Json.tidyDescriptor, if_neg hclass]
      exact hsorted
  · next hshape =>
    obtain rfl := Except.ok.inj hread
    have hclass : value.member? "attrs" = none := by
      cases value with
      | object members => exact absurd rfl (hshape members)
      | null | bool _ | integer _ | double _ | string _ | array _ => rfl
    rw [Json.tidyDescriptor, hclass]
    exact hsorted

end Descriptor

namespace Environment

/-- A module that is read is written with its descriptors tidied. -/
theorem sorted_moduleToJson_of_readModule {name : String} {value : Json}
    {module : String × Dict Descriptor} (hread : readModule (name, outlineOf value) = .ok module)
    (hplain : value.Plain Json.depthLimit) :
    module.1 = name ∧ (moduleToJson module.2).sorted =
      value.mapMembers fun _ descriptor => descriptor.tidyDescriptor := by
  obtain ⟨members, hmembers, hread⟩ := bind_eq_ok_iff.mp hread
  obtain ⟨entries, hentries, hread⟩ := bind_eq_ok_iff.mp hread
  obtain rfl := Except.ok.inj hread
  obtain rfl := outlineOf_eq_ok_iff.mp (mapError_eq_ok_iff.mp hmembers)
  refine ⟨rfl,
    Json.sorted_ofDict_of_mapM hplain.ascending hentries fun member hmember entry hentry => ?_⟩
  obtain ⟨d, hd, hentry⟩ := bind_eq_ok_iff.mp hentry
  obtain rfl := Except.ok.inj hentry
  exact ⟨rfl, Descriptor.sorted_toJson_of_ofJson hd (hplain.part (List.mem_map_of_mem hmember))⟩

/-- A model that is read is written with its method lists tidied. -/
theorem sorted_toJson_of_ofJson {value : Json} {env : Environment} (hread : ofJson value = .ok env)
    (hplain : value.Plain Json.depthLimit) : env.toJson.sorted = value.tidyModel := by
  rw [ofJson, ofOutline_eq] at hread
  obtain ⟨modules, hmodules, hread⟩ := bind_eq_ok_iff.mp hread
  obtain ⟨entries, hentries, hread⟩ := bind_eq_ok_iff.mp hread
  obtain rfl := Except.ok.inj hread
  obtain ⟨members, hmembers, rfl⟩ := map_eq_ok_iff.mp (mapError_eq_ok_iff.mp hmodules)
  obtain rfl := outlineOf_eq_ok_iff.mp hmembers
  rw [List.mapM_map] at hentries
  refine Json.sorted_ofDict_of_mapM hplain.ascending hentries
    fun member hmember module hmodule => ?_
  exact sorted_moduleToJson_of_readModule hmodule (hplain.part (List.mem_map_of_mem hmember))

/-- A model that is read from a value without binary64 numbers and with a nesting that texts may
have is saved as this value with its method lists tidied, in the compact text as in the pretty
text. -/
theorem saved_eq_tidyModel {value : Json} {env : Environment} (hplain : value.Plain Json.depthLimit)
    (hread : ofJson value = .ok env) :
    env.toJson.sorted = value.tidyModel ∧ Json.parse? env.toJson.compact = some value.tidyModel ∧
      Json.parse? env.text = some value.tidyModel := by
  have hlimit : Json.depthLimit = 120 + 7 := rfl
  have hloaded := loaded_of_ofJson hread (hlimit ▸ hplain)
  have hexact : env.toJson.Exact Json.depthLimit := hloaded.exact_toJson (by decide)
  have hsorted := sorted_toJson_of_ofJson hread hplain
  refine ⟨hsorted, ?_, ?_⟩
  · rw [Json.parse?_compact hexact, hsorted]
  · rw [Json.parse?, Json.ofChars?, ofChars?_text hexact, Option.bind_some,
      Json.value_form hexact, hsorted]

/-- A method entry and a parameter in array notation, a default of null, an entry without
parameters, a return type of null, fields that no entry and no parameter has, one beside those of a
class, and a descriptor that is no class. -/
def untidy : Json :=
  .object [("geometry", .object [
    ("Shape", .object [
      ("attrs", .object [("dims", .array [.string "int32", .integer 3])]),
      ("methods", .array [
        .array [.string "scale",
          .array [
            .array [.string "by", .string "int32", .null],
            .object [("name", .string "axis"), ("type", .bool true), ("unit", .string "m")]],
          .null],
        .object [("name", .string "area"), ("pure", .bool true), ("returns", .string "float64")]]),
      ("name", .string "Shape"),
      ("parents", .array [.string "Base"])]),
    ("unit", .object [("methods", .array [.array [.string "value"]])])])]

/-- This value with its method list tidied. -/
def tidied : Json :=
  .object [("geometry", .object [
    ("Shape", .object [
      ("attrs", .object [("dims", .array [.string "int32", .integer 3])]),
      ("methods", .array [
        .object [("name", .string "scale"),
          ("params", .array [
            .object [("default", .null), ("name", .string "by"), ("type", .string "int32")],
            .object [("name", .string "axis"), ("type", .bool true)]])],
        .object [("name", .string "area"), ("params", .array []), ("returns", .string "float64")]]),
      ("name", .string "Shape"),
      ("parents", .array [.string "Base"])]),
    ("unit", .object [("methods", .array [.array [.string "value"]])])])]

/-- The model that is read from this value. -/
def untidyModel : Environment :=
  ⟨.ofList [("geometry", .ofList [
    ("Shape", .ofClass {
      name := "Shape"
      attrs := .ofList [("dims", .tuple [.leaf "int32", .literal "3"])]
      methods :=
        ⟨[(⟨"scale", [⟨"by", .leaf "int32", some "null"⟩, ⟨"axis", .literal "true", none⟩]⟩, none),
          (⟨"area", []⟩, some (.leaf "float64"))], by decide⟩
      extra := .ofList [("parents", .array [.string "Base"])] }),
    ("unit", .other (.object [("methods", .array [.array [.string "value"]])]))])]⟩

/-- This model is saved as the tidied value. -/
theorem saved_eq_tidyModel_untidy :
    untidy.Plain Json.depthLimit ∧ ofJson untidy = .ok untidyModel ∧ untidy.tidyModel = tidied ∧
      Json.parse? untidyModel.text = some tidied := by
  have hexact : untidy.Exact Json.depthLimit := by
    simp [untidy, Json.depthLimit, Json.Exact, Json.ExactItems, Json.ExactMembers, Json.InWord,
      Json.Numeral.wordMax]
  have hordered : untidy.Ordered := by
    simp [untidy, Json.Ordered, Json.OrderedItems, Json.OrderedMembers]
    decide
  have hread : ofJson untidy = .ok untidyModel := rfl
  have htidied : untidy.tidyModel = tidied := rfl
  exact ⟨⟨hexact, hordered⟩, hread, htidied, (saved_eq_tidyModel ⟨hexact, hordered⟩ hread).2.2⟩

end Environment

end TypeSieve
