import TypeSieve.Proofs.Model.SavedMethods

/-!
# Saved classes

A class that was read from a plain value is read back from what is written for it: the attributes
with their types, the methods, and the other fields, none of which has the name of a field that a
class owns. What is kept as a value has not both fields of a class and is kept again.
-/

namespace TypeSieve

variable {depth : Nat}

namespace ClassDescription

/-- A class with what reading plain values brings about; the other fields have other names. -/
structure Loaded (depth : Nat) (c : ClassDescription) : Prop where
  attrs : ∀ entry ∈ c.attrs.entries, Json.Loaded (depth + 3) TypeExpr.ofJson entry.2
  methods : ∀ entry ∈ c.methods.entries, Json.Loaded (depth + 3) Methods.entryOfJson (.ok entry)
  extra : ∀ member ∈ c.extra.entries, member.1 ∉ ownFields ∧ member.2.Plain (depth + 4)

/-- The attributes that are read from a plain value have loaded types. -/
theorem loaded_of_attrsOfJson {value : Json} {attrs : Dict TypeExpr}
    (h : attrsOfJson value = .ok attrs) (hplain : value.Plain (depth + 1))
    {entry : String × TypeExpr} (hentry : entry ∈ attrs.entries) :
    Json.Loaded depth TypeExpr.ofJson entry.2 := by
  obtain ⟨members, hmembers, h⟩ := bind_eq_ok_iff.mp h
  obtain rfl := Except.ok.inj h
  obtain rfl := asObject_eq_ok_iff.mp hmembers
  obtain ⟨member, hmember, rfl⟩ := List.mem_map.mp (mem_of_mem_canonicalEntries hentry)
  exact ⟨member.2, hplain.members hmember, rfl⟩

/-- The methods that are read from a plain value are loaded. -/
theorem loaded_of_methodsOfJson {value : Json} {m : Methods} (h : Methods.ofJson value = .ok m)
    (hplain : value.Plain (depth + 1)) {entry : MethodEntry} (hentry : entry ∈ m.entries) :
    Json.Loaded depth Methods.entryOfJson (.ok entry) := by
  obtain ⟨items, hitems, hrest⟩ := bind_eq_ok_iff.mp h
  obtain ⟨entries, hentries, hmethods⟩ := bind_eq_ok_iff.mp hrest
  obtain rfl := asArray_eq_ok_iff.mp hitems
  rw [(Methods.ofEntries_eq_ok_iff entries m).mp (mapError_eq_ok_iff.mp hmethods)] at hentry
  obtain ⟨item, hitem, hread⟩ := exists_of_mapM_eq_ok hentries hentry
  exact ⟨item, hplain.items hitem, hread⟩

/-- A class is made of its attributes, its methods, its name and the other members. -/
theorem parts_of_ofMembers {attrs methods : Json} {members : List (String × Json)}
    {c : ClassDescription} (h : ofMembers attrs methods members = .ok c) :
    attrsOfJson attrs = .ok c.attrs ∧ Methods.ofJson methods = .ok c.methods ∧
      findEntry "name" members = some (.string c.name) ∧
      c.extra = .ofList (members.filter fun member => !ownFields.contains member.1) := by
  obtain ⟨types, htypes, h⟩ := bind_eq_ok_iff.mp h
  obtain ⟨m, hm, h⟩ := bind_eq_ok_iff.mp h
  obtain ⟨name, hname, h⟩ := bind_eq_ok_iff.mp h
  obtain ⟨text, htext, h⟩ := bind_eq_ok_iff.mp h
  obtain rfl := required_eq_ok_iff.mp htext
  obtain rfl := Except.ok.inj h
  exact ⟨htypes, hm, asField_asString_eq_some hname, rfl⟩

/-- A class that is read from a plain object is loaded. -/
theorem loaded_of_ofMembers {attrs methods : Json} {members : List (String × Json)}
    {c : ClassDescription} (h : ofMembers attrs methods members = .ok c)
    (hplain : (Json.object members).Plain (depth + 5))
    (hattrs : findEntry "attrs" members = some attrs)
    (hmethods : findEntry "methods" members = some methods) : c.Loaded depth := by
  have hattrs := hplain.parts (Json.mem_parts_of_findEntry hattrs)
  have hmethods := hplain.parts (Json.mem_parts_of_findEntry hmethods)
  obtain ⟨htypes, hm, -, hextra⟩ := parts_of_ofMembers h
  refine ⟨fun entry => loaded_of_attrsOfJson htypes hattrs,
    fun entry => loaded_of_methodsOfJson hm hmethods, fun member hmember => ?_⟩
  rw [hextra] at hmember
  obtain ⟨hmem, hown⟩ := List.mem_filter.mp (mem_of_mem_canonicalEntries hmember)
  exact ⟨by simpa using hown, hplain.members hmem⟩

/-- The members that a class is written as. -/
def fields (c : ClassDescription) : List (String × Json) :=
  [("name", .string c.name), ("attrs", .ofDict (c.attrs.map fun _ type => type.toJson)),
    ("methods", c.methods.toJson)] ++ c.extra.entries

/-- A key that is none of the fields of a class finds one of the other members. -/
theorem findEntry_fields {key : String} (hown : key ∉ ownFields) (c : ClassDescription) :
    findEntry key c.fields = findEntry key c.extra.entries := by
  simp only [ownFields, List.mem_cons, List.not_mem_nil, or_false, not_or] at hown
  simp [fields, findEntry, Ne.symm hown.1, Ne.symm hown.2.1, Ne.symm hown.2.2]

/-- No other field of a loaded class has the name of one that the class owns. -/
theorem Loaded.notMem_extra {c : ClassDescription} (h : c.Loaded depth) {key : String}
    (hown : key ∈ ownFields) : key ∉ c.extra.entries.map Prod.fst := by
  intro hmem
  obtain ⟨member, hmember, rfl⟩ := List.mem_map.mp hmem
  exact (h.extra member hmember).1 hown

/-- The written members of a loaded class have distinct keys. -/
theorem Loaded.nodup_fields {c : ClassDescription} (h : c.Loaded depth) :
    (c.fields.map Prod.fst).Nodup := by
  change (ownFields ++ c.extra.entries.map Prod.fst).Nodup
  rw [List.nodup_append]
  refine ⟨by decide, c.extra.ascending.nodup_keys, fun field hfield other hother heq => ?_⟩
  exact h.notMem_extra hfield (heq ▸ hother)

/-- The attributes of a loaded class are written as a plain object, which is read as the
attributes. -/
theorem Loaded.attrs_toJson {c : ClassDescription} (h : c.Loaded depth)
    (hle : depth + 3 ≤ Json.depthLimit) :
    (Json.ofDict (c.attrs.map fun _ type => type.toJson)).Plain (depth + 4) ∧
      attrsOfJson (Json.ofDict (c.attrs.map fun _ type => type.toJson)) = .ok c.attrs := by
  have htype : ∀ entry ∈ c.attrs.entries, entry.2.toJson.Plain (depth + 3) ∧
      TypeExpr.ofJson entry.2.toJson = entry.2 := by
    intro entry hentry
    exact TypeExpr.plain_toJson (h.attrs entry hentry) hle
  have hvalues : ∀ member ∈ (c.attrs.map fun _ type => type.toJson).entries,
      member.2.Plain (depth + 3) := by
    intro member hmember
    obtain ⟨entry, hentry, rfl⟩ := List.mem_map.mp hmember
    exact (htype entry hentry).1
  have hentries : (c.attrs.map fun _ type => type.toJson).entries.map
      (fun member => (member.1, TypeExpr.ofJson member.2)) = c.attrs.entries := by
    have hback : ∀ entry ∈ c.attrs.entries, (entry.1, TypeExpr.ofJson entry.2.toJson) = entry := by
      intro entry hentry
      rw [(htype entry hentry).2]
    change (c.attrs.entries.map _).map _ = _
    rw [List.map_map]
    exact (List.map_congr_left hback).trans (List.map_id' _)
  refine ⟨Json.plain_ofDict hvalues, bind_eq_ok_iff.mpr ⟨_, rfl, ?_⟩⟩
  rw [hentries, Dict.ofList_entries]
  rfl

/-- The other fields of a loaded class are those that a reader holds under other names. -/
theorem Loaded.extra_held {c : ClassDescription} (h : c.Loaded depth) :
    Dict.ofList ((Json.held c.fields).filter fun member => !ownFields.contains member.1) =
      c.extra := by
  have hascending :
      Ascending ((Json.held c.fields).filter fun member => !ownFields.contains member.1) :=
    List.Pairwise.filter _ (Json.ascending_held c.fields)
  refine Dict.ext ((canonicalEntries_eq_self hascending).trans ?_)
  refine hascending.eq_of_findEntry_eq c.extra.ascending fun key => ?_
  by_cases hown : key ∈ ownFields
  · -- A key that the class owns is on neither side.
    have hleft : key ∉ ((Json.held c.fields).filter fun member => !ownFields.contains member.1).map
        Prod.fst := by
      intro hmem
      obtain ⟨member, hmember, rfl⟩ := List.mem_map.mp hmem
      simp [hown] at hmember
    rw [(findEntry_eq_none_iff _ _).mpr hleft,
      (findEntry_eq_none_iff _ _).mpr (h.notMem_extra hown)]
  · have hpass : (!ownFields.contains key) = true := by simpa using hown
    rw [findEntry_filter (fun key => !ownFields.contains key) hpass,
      Json.findEntry_held h.nodup_fields, findEntry_fields hown]
    cases hfind : findEntry key c.extra.entries with
    | none => rfl
    | some found =>
      have hplain := (h.extra (key, found) (mem_of_findEntry hfind)).2
      rw [Option.map_some, Json.sorted_eq_self hplain.ordered]

/-- A loaded class is read back. -/
theorem Loaded.readBack_toJson {c : ClassDescription} (h : c.Loaded depth)
    (hle : depth + 3 ≤ Json.depthLimit) :
    Json.ReadBack (depth + 5) Descriptor.ofJson c.toJson (.ofClass c) := by
  obtain ⟨hattrs, hreadAttrs⟩ := h.attrs_toJson hle
  obtain ⟨hmethods, hreadMethods⟩ := Methods.readBack_toJson h.methods (by omega)
  change Json.ReadBack _ _ (.object c.fields) _
  constructor
  · rw [Json.exact_object_iff]
    refine ⟨depth + 4, rfl, fun member hmember => ?_⟩
    rcases List.mem_append.mp hmember with hown | hextra
    · simp only [List.mem_cons, List.not_mem_nil, or_false] at hown
      rcases hown with rfl | rfl | rfl
      · trivial
      · exact hattrs.exact
      · exact hmethods
    · exact (h.extra member hextra).2.exact
  · have hname : findEntry "name" (Json.held c.fields) = some (.string c.name) :=
      Json.findEntry_held h.nodup_fields "name"
    have hattrs : findEntry "attrs" (Json.held c.fields) =
        some (.ofDict (c.attrs.map fun _ type => type.toJson)) := by
      rw [Json.findEntry_held h.nodup_fields]
      exact congrArg some (Json.sorted_eq_self hattrs.ordered)
    have hmethods : findEntry "methods" (Json.held c.fields) = some c.methods.toJson.sorted :=
      Json.findEntry_held h.nodup_fields "methods"
    rw [Json.sorted_object, Descriptor.ofJson, hattrs, hmethods]
    dsimp only
    rw [ofMembers, hreadAttrs, hreadMethods, hname, h.extra_held]
    rfl

end ClassDescription

namespace Descriptor

/-- A descriptor with what reading plain values brings about. -/
def Loaded (depth : Nat) : Descriptor → Prop
  | .ofClass c => c.Loaded depth
  | .other value => value.Plain (depth + 5) ∧ ofJson value = .ok (.other value)

/-- A descriptor that is read from a plain value is loaded. -/
theorem loaded_of_ofJson {value : Json} {d : Descriptor} (h : ofJson value = .ok d)
    (hplain : value.Plain (depth + 5)) : d.Loaded depth := by
  have hother : ∀ {found : Json}, found = value → ofJson value = .ok (.other found) →
      (Descriptor.other found).Loaded depth := by
    intro found heq hread
    subst heq
    exact ⟨hplain, hread⟩
  have hread := h
  unfold ofJson at h
  split at h
  · next members =>
    split at h
    · next attrs methods hattrs hmethods =>
      obtain ⟨c, hc, rfl⟩ := map_eq_ok_iff.mp h
      exact ClassDescription.loaded_of_ofMembers hc hplain hattrs hmethods
    · obtain rfl := Except.ok.inj h
      exact hother rfl hread
  · obtain rfl := Except.ok.inj h
    exact hother rfl hread

/-- A loaded descriptor is read back. -/
theorem Loaded.readBack_toJson {d : Descriptor} (h : d.Loaded depth)
    (hle : depth + 3 ≤ Json.depthLimit) : Json.ReadBack (depth + 5) ofJson d.toJson d := by
  cases d with
  | ofClass c => exact ClassDescription.Loaded.readBack_toJson h hle
  | other value =>
    obtain ⟨hplain, hread⟩ := h
    refine ⟨hplain.exact, ?_⟩
    rw [toJson, Json.sorted_eq_self hplain.ordered]
    exact hread

end Descriptor

end TypeSieve
