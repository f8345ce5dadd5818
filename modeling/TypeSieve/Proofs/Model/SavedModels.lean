import TypeSieve.Proofs.Model.Places
import TypeSieve.Proofs.Model.SavedClasses

/-!
# Saved models

A model that was read from a plain value is read back from the value, the compact text and the
pretty text that are written for it.
-/

namespace TypeSieve

variable {depth : Nat}

namespace Environment

/-- A model with what reading plain values brings about. -/
def Loaded (depth : Nat) (env : Environment) : Prop :=
  ∀ module entity d, env.descriptor? module entity = some d → d.Loaded depth

/-- Read a member of a module. -/
def readMember (member : String × Json) : Except ModelError (String × Descriptor) := do
  return (member.1, ← Descriptor.ofJson member.2)

/-- Read a module from its members. -/
def readModule (module : String × Outline Json) : Except ModelError (String × Dict Descriptor) := do
  let members ← module.2.mapError (ModelError.unexpected · .map)
  return (module.1, .ofList (← members.mapM readMember))

/-- A model is read module by module. -/
theorem ofOutline_eq (outline : Outline (Outline Json)) : ofOutline outline = do
    let modules ← outline.mapError (ModelError.unexpected · .map)
    return ⟨.ofList (← modules.mapM readModule)⟩ := rfl

/-- The members of a value that has members are those of an object. -/
theorem outlineOf_eq_ok_iff {value : Json} {members : List (String × Json)} :
    outlineOf value = .ok members ↔ value = .object members := by
  cases value <;> simp [outlineOf]

/-- The descriptors of a model that is read are read from the members of its modules. -/
theorem exists_member_of_ofOutline {outline : Outline (Outline Json)} {env : Environment}
    (h : ofOutline outline = .ok env) {module entity : String} {d : Descriptor}
    (hplace : env.descriptor? module entity = some d) :
    ∃ modules members value, outline = .ok modules ∧ (module, .ok members) ∈ modules ∧
      (entity, value) ∈ members ∧ Descriptor.ofJson value = .ok d := by
  rw [ofOutline_eq] at h
  obtain ⟨modules, hmodules, h⟩ := bind_eq_ok_iff.mp h
  obtain ⟨read, hread, h⟩ := bind_eq_ok_iff.mp h
  obtain rfl := Except.ok.inj h
  obtain ⟨descriptors, hdescriptors, hentity⟩ := Option.bind_eq_some_iff.mp hplace
  have hmem := mem_of_mem_canonicalEntries ((Dict.get?_eq_some_iff _ _ _).mp hdescriptors)
  obtain ⟨⟨name, outline⟩, hin, hmodule⟩ := exists_of_mapM_eq_ok hread hmem
  obtain ⟨members, hmembers, hmodule⟩ := bind_eq_ok_iff.mp hmodule
  obtain ⟨entries, hentries, hmodule⟩ := bind_eq_ok_iff.mp hmodule
  obtain ⟨rfl, rfl⟩ := Prod.mk.inj (Except.ok.inj hmodule)
  have hmem := mem_of_mem_canonicalEntries ((Dict.get?_eq_some_iff _ _ _).mp hentity)
  obtain ⟨⟨key, value⟩, hvalue, hdescriptor⟩ := exists_of_mapM_eq_ok hentries hmem
  obtain ⟨found, hfound, hdescriptor⟩ := bind_eq_ok_iff.mp hdescriptor
  obtain ⟨rfl, rfl⟩ := Prod.mk.inj (Except.ok.inj hdescriptor)
  obtain rfl := mapError_eq_ok_iff.mp hmembers
  exact ⟨modules, members, value, mapError_eq_ok_iff.mp hmodules, hin, hvalue, hfound⟩

/-- A model that is read from a plain value is loaded. -/
theorem loaded_of_ofJson {value : Json} {env : Environment} (h : ofJson value = .ok env)
    (hplain : value.Plain (depth + 7)) : env.Loaded depth := by
  intro module entity d hplace
  obtain ⟨modules, members, part, houtline, hmodule, hmember, hread⟩ :=
    exists_member_of_ofOutline h hplace
  obtain ⟨found, hfound, rfl⟩ := map_eq_ok_iff.mp houtline
  obtain ⟨⟨name, descriptors⟩, hin, heq⟩ := List.mem_map.mp hmodule
  obtain ⟨rfl, hdescriptors⟩ := Prod.mk.inj heq
  obtain rfl := outlineOf_eq_ok_iff.mp hfound
  obtain rfl := outlineOf_eq_ok_iff.mp hdescriptors
  exact Descriptor.loaded_of_ofJson hread ((hplain.members hin).members hmember)

/-- The members of a module as a reader holds them. -/
def heldMembers (descriptors : Dict Descriptor) : List (String × Json) :=
  descriptors.entries.map fun place => (place.1, place.2.toJson.sorted)

/-- The members of the modules of a model as a reader holds them. -/
def outline (env : Environment) : Outline (Outline Json) :=
  .ok (env.modules.entries.map fun module => (module.1, .ok (heldMembers module.2)))

/-- The descriptors among the entries of a loaded model are read back. -/
theorem Loaded.readBack_descriptor {env : Environment} (h : env.Loaded depth)
    (hle : depth + 3 ≤ Json.depthLimit) {module : String × Dict Descriptor}
    (hmodule : module ∈ env.modules.entries) {place : String × Descriptor}
    (hplace : place ∈ module.2.entries) :
    Json.ReadBack (depth + 5) Descriptor.ofJson place.2.toJson place.2 := by
  have hfind : env.descriptor? module.1 place.1 = some place.2 := by
    rw [descriptor?, module?, (Dict.get?_eq_some_iff _ _ _).mpr hmodule, Option.bind_some,
      (Dict.get?_eq_some_iff _ _ _).mpr hplace]
  exact (h module.1 place.1 place.2 hfind).readBack_toJson hle

/-- A loaded model is read back from its members. -/
theorem Loaded.ofOutline_outline {env : Environment} (h : env.Loaded depth)
    (hle : depth + 3 ≤ Json.depthLimit) : ofOutline env.outline = .ok env := by
  have hmodule : ∀ module ∈ env.modules.entries,
      readModule (module.1, .ok (heldMembers module.2)) = .ok module := by
    intro module hmodule
    have hmember : ∀ place ∈ module.2.entries,
        readMember (place.1, place.2.toJson.sorted) = .ok place := by
      intro place hplace
      rw [readMember, (h.readBack_descriptor hle hmodule hplace).read]
      rfl
    refine bind_eq_ok_iff.mpr ⟨heldMembers module.2, rfl, ?_⟩
    refine bind_eq_ok_iff.mpr ⟨module.2.entries, mapM_map_eq_ok hmember, ?_⟩
    rw [Dict.ofList_entries]
    rfl
  rw [ofOutline_eq]
  refine bind_eq_ok_iff.mpr ⟨_, rfl, ?_⟩
  refine bind_eq_ok_iff.mpr ⟨env.modules.entries, mapM_map_eq_ok hmodule, ?_⟩
  rw [Dict.ofList_entries]
  rfl

/-- A loaded model is written as an exact value. -/
theorem Loaded.exact_toJson {env : Environment} (h : env.Loaded depth)
    (hle : depth + 3 ≤ Json.depthLimit) : env.toJson.Exact (depth + 7) := by
  refine Json.exact_ofDict fun member hmember => ?_
  obtain ⟨module, hmodule, rfl⟩ := List.mem_map.mp hmember
  refine Json.exact_ofDict fun member hmember => ?_
  obtain ⟨place, hplace, rfl⟩ := List.mem_map.mp hmember
  exact (h.readBack_descriptor hle hmodule hplace).exact

/-- A model is written as a value with its members. -/
theorem ofJson_toJson (env : Environment) : ofJson env.toJson.sorted = ofOutline env.outline := by
  rw [toJson, Json.sorted_ofDict, ofJson]
  congr 1
  change Except.ok (((env.modules.entries.map _).map _).map _) = _
  rw [List.map_map, List.map_map, outline]
  congr 1
  refine List.map_congr_left fun module _ => ?_
  change (module.1, outlineOf (moduleToJson module.2).sorted) = _
  rw [moduleToJson, Json.sorted_ofDict]
  change (module.1, Except.ok ((module.2.entries.map _).map _)) = _
  rw [List.map_map]
  rfl

/-- The members of a value with the values as they are held. -/
def heldOutline (value : Json) : Outline Json :=
  (outlineOf value).map fun members => members.map fun member => (member.1, member.2.sorted)

/-- The tree of what is written for a model has its members, if its descriptors are exact. -/
theorem members?_form {env : Environment} (h : ∀ module ∈ env.modules.entries,
      ∀ place ∈ module.2.entries, place.2.toJson.Exact depth) :
    env.toJson.form.members? (fun inner => Json.Form.members? Json.Form.value inner) (depth + 2) =
      some env.outline := by
  have hmodule : ∀ member ∈ (env.modules.map fun _ module => moduleToJson module).entries,
      Json.Form.members? Json.Form.value (depth + 1) member.2.form =
        some (heldOutline member.2) := by
    intro member hmember
    obtain ⟨module, hmodule, rfl⟩ := List.mem_map.mp hmember
    refine Json.members?_form Json.sorted fun member hmember => ?_
    obtain ⟨place, hplace, rfl⟩ := List.mem_map.mp hmember
    exact Json.value_form (h module hmodule place hplace)
  rw [toJson, Json.ofDict, Json.members?_form heldOutline hmodule, outline]
  change some (Except.ok ((env.modules.entries.map _).map _)) = _
  rw [List.map_map]
  refine congrArg (fun modules => some (Except.ok modules)) (List.map_congr_left fun module _ => ?_)
  change (module.1, Except.ok ((module.2.entries.map _).map _)) = _
  rw [List.map_map]
  rfl

/-- A text with the tree of what is written for a loaded model is read as the model. -/
theorem Loaded.parse_eq_ok {env : Environment} (h : env.Loaded depth)
    (hle : depth + 7 ≤ Json.depthLimit) {text : String}
    (htext : Json.Form.ofChars? text.toList = some env.toJson.form) : parse text = .ok env := by
  have hlimit : Json.depthLimit = 125 + 2 := rfl
  have houtline : outlineOfText text = some env.outline := by
    rw [outlineOfText, htext, Option.bind_some, hlimit]
    refine members?_form fun module hmodule place hplace => ?_
    exact (h.readBack_descriptor (by omega) hmodule hplace).exact.mono (by omega)
  rw [parse, houtline]
  exact mapError_eq_ok_iff.mpr (h.ofOutline_outline (by omega))

/-- The text of a model has the tree of what is written for it, if this is exact. -/
theorem ofChars?_text {env : Environment} (h : env.toJson.Exact depth) :
    Json.Form.ofChars? env.text.toList = some env.toJson.form := by
  have hbreak : ∀ c ∈ ['\n'], Json.isGap c = true := List.all_eq_true.mp rfl
  have htext : env.text.toList = Json.prettyChars 0 env.toJson ++ ['\n'] := by
    rw [text, Json.pretty, String.toList_append, String.toList_ofList]
    rfl
  rw [htext]
  exact Json.ofChars?_prettyChars h hbreak

/-- A loaded model is read back from the value that is written for it and from the compact and the
pretty text of this value. -/
theorem Loaded.readBack {env : Environment} (h : env.Loaded depth)
    (hle : depth + 7 ≤ Json.depthLimit) :
    ofJson env.toJson.sorted = .ok env ∧ parse env.toJson.compact = .ok env ∧
      parse env.text = .ok env := by
  have hexact := h.exact_toJson (by omega)
  refine ⟨?_, ?_, ?_⟩
  · rw [ofJson_toJson]
    exact h.ofOutline_outline (by omega)
  · refine h.parse_eq_ok hle ?_
    rw [Json.compact, String.toList_ofList]
    exact Json.ofChars?_compactChars hexact
  · exact h.parse_eq_ok hle (ofChars?_text hexact)

end Environment

end TypeSieve
