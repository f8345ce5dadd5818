import TypeSieve.Proofs.Model.Texts
import TypeSieve.Proofs.Model.WellFormed

/-!
# Which values are models

A descriptor with both keys of a class has to be a well-formed class, and every other value is kept
as it is. So no malformed class is taken for anything else. A model is an object of objects of
descriptors, and has a descriptor exactly where the value has a member.
-/

namespace TypeSieve

namespace Json

/-- The keys of an object. -/
def keys : Json → List String
  | .object members => members.map Prod.fst
  | _ => []

/-- The value is an object whose values have a property. -/
def IsObjectOf (P : Json → Prop) : Json → Prop
  | .object members => ∀ member ∈ members, P member.2
  | _ => False

/-- An object with both keys of a class. -/
def IsClassShaped (value : Json) : Prop := "attrs" ∈ value.keys ∧ "methods" ∈ value.keys

/-- The signatures that the method entries of an object stand for. -/
def signatures (value : Json) : List Signature :=
  (((value.member? "methods").map parts).getD []).map signature

/-- An object with a name, attributes, and well-formed method entries with distinct signatures. -/
structure WellFormedClass (value : Json) : Prop where
  name : ∃ text, value.member? "name" = some (.string text)
  attrs : ∃ members, value.member? "attrs" = some (.object members)
  methods : ∃ list, value.member? "methods" = some list ∧ list.IsListOf WellFormedEntry
  distinct : value.signatures.Nodup

/-- The member of a member of an object. -/
def place? (module entity : String) (value : Json) : Option Json :=
  (value.member? module).bind fun members => members.member? entity

/-- A member is found under each key of an object, and under no other. -/
theorem mem_keys_iff (key : String) (value : Json) :
    key ∈ value.keys ↔ ∃ part, value.member? key = some part := by
  cases value with
  | object members =>
    rw [← not_iff_not, keys, ← findEntry_eq_none_iff, not_exists, member?,
      Option.eq_none_iff_forall_ne_some]
  | null | bool _ | integer _ | double _ | string _ | array _ => simp [keys, member?]

/-- An object of values with a property has its members with it. -/
theorem isObjectOf_iff (P : Json → Prop) (value : Json) :
    value.IsObjectOf P ↔ ∃ members, value = .object members ∧ ∀ member ∈ members, P member.2 := by
  cases value <;> simp [IsObjectOf]

/-- A well-formed class has both keys of a class. -/
theorem WellFormedClass.isClassShaped {value : Json} (h : value.WellFormedClass) :
    value.IsClassShaped := by
  obtain ⟨members, hattrs⟩ := h.attrs
  obtain ⟨list, hmethods, -⟩ := h.methods
  exact ⟨(mem_keys_iff ..).mpr ⟨_, hattrs⟩, (mem_keys_iff ..).mpr ⟨list, hmethods⟩⟩

end Json

namespace ClassDescription

/-- A class is read exactly if its attributes are an object, its methods are read and its name is a
string. -/
theorem exists_ofMembers_eq_ok_iff (attrs methods : Json) (members : List (String × Json)) :
    (∃ c, ofMembers attrs methods members = .ok c) ↔ (∃ types, attrs = .object types) ∧
      (∃ m, Methods.ofJson methods = .ok m) ∧
      ∃ text, findEntry "name" members = some (.string text) := by
  constructor
  · rintro ⟨c, h⟩
    obtain ⟨hattrs, hmethods, hname, -⟩ := parts_of_ofMembers h
    obtain ⟨types, htypes, -⟩ := bind_eq_ok_iff.mp hattrs
    exact ⟨⟨types, asObject_eq_ok_iff.mp htypes⟩, ⟨c.methods, hmethods⟩, c.name, hname⟩
  · rintro ⟨⟨types, rfl⟩, ⟨m, hmethods⟩, text, hname⟩
    rw [ofMembers, hmethods, hname]
    exact ⟨_, rfl⟩

end ClassDescription

namespace Descriptor

/-- What has not both keys of a class is kept as it is. -/
theorem ofJson_of_not_isClassShaped {value : Json} (h : ¬ value.IsClassShaped) :
    ofJson value = .ok (.other value) := by
  unfold ofJson
  split
  · next members =>
    split
    · next attrs methods hattrs hmethods =>
      exact absurd ⟨(Json.mem_keys_iff ..).mpr ⟨attrs, hattrs⟩,
        (Json.mem_keys_iff ..).mpr ⟨methods, hmethods⟩⟩ h
    · rfl
  · rfl

/-- What has both keys of a class is read as a class. -/
theorem ofJson_of_isClassShaped {value : Json} (h : value.IsClassShaped) :
    ∃ members attrs methods, value = .object members ∧ value.member? "attrs" = some attrs ∧
      value.member? "methods" = some methods ∧
      ofJson value = (ClassDescription.ofMembers attrs methods members).map .ofClass := by
  obtain ⟨attrs, hattrs⟩ := (Json.mem_keys_iff ..).mp h.1
  obtain ⟨methods, hmethods⟩ := (Json.mem_keys_iff ..).mp h.2
  cases value with
  | object members =>
    refine ⟨members, attrs, methods, rfl, hattrs, hmethods, ?_⟩
    change findEntry "attrs" members = _ at hattrs
    change findEntry "methods" members = _ at hmethods
    rw [ofJson, hattrs, hmethods]
  | null | bool _ | integer _ | double _ | string _ | array _ => cases hattrs

/-- A value is kept as it is exactly if it has not both keys of a class. -/
theorem ofJson_eq_other_iff (value kept : Json) :
    ofJson value = .ok (.other kept) ↔ ¬ value.IsClassShaped ∧ kept = value := by
  by_cases hshape : value.IsClassShaped
  · obtain ⟨members, attrs, methods, -, -, -, hread⟩ := ofJson_of_isClassShaped hshape
    rw [hread, map_eq_ok_iff]
    simp [hshape]
  · rw [ofJson_of_not_isClassShaped hshape]
    simp [hshape, eq_comm]

/-- A value is read as a class exactly if it is a well-formed one. -/
theorem exists_ofJson_eq_ofClass_iff (value : Json) :
    (∃ c, ofJson value = .ok (.ofClass c)) ↔ value.WellFormedClass := by
  by_cases hshape : value.IsClassShaped
  -- A value with both keys is never kept, so it is a class exactly if its parts are read.
  · obtain ⟨members, attrs, methods, rfl, hattrs, hmethods, hread⟩ := ofJson_of_isClassShaped hshape
    have hclass : (∃ c, ofJson (.object members) = .ok (.ofClass c)) ↔
        ∃ c, ClassDescription.ofMembers attrs methods members = .ok c := by
      simp [hread, map_eq_ok_iff]
    have hsignatures : (Json.object members).signatures = methods.parts.map Json.signature := by
      rw [Json.signatures, hmethods]
      rfl
    rw [hclass, ClassDescription.exists_ofMembers_eq_ok_iff,
      Methods.exists_ofJson_eq_ok_iff, ← hsignatures]
    constructor
    · rintro ⟨⟨types, rfl⟩, ⟨hlist, hdistinct⟩, hname⟩
      exact ⟨hname, ⟨types, hattrs⟩, ⟨methods, hmethods, hlist⟩, hdistinct⟩
    · rintro ⟨hname, ⟨types, htypes⟩, ⟨list, hlist, hentries⟩, hdistinct⟩
      obtain rfl := Option.some.inj (hattrs.symm.trans htypes)
      obtain rfl := Option.some.inj (hmethods.symm.trans hlist)
      exact ⟨⟨types, rfl⟩, ⟨hentries, hdistinct⟩, hname⟩
  · rw [ofJson_of_not_isClassShaped hshape]
    constructor
    · rintro ⟨c, ⟨⟩⟩
    · intro h
      exact absurd h.isClassShaped hshape

/-- The methods of a class that is read have the signatures that its entries stand for. -/
theorem keys_of_ofJson {value : Json} {c : ClassDescription} (h : ofJson value = .ok (.ofClass c)) :
    c.methods.keys = value.signatures := by
  have hshape := ((exists_ofJson_eq_ofClass_iff value).mp ⟨c, h⟩).isClassShaped
  obtain ⟨members, attrs, methods, rfl, -, hmethods, hread⟩ := ofJson_of_isClassShaped hshape
  obtain ⟨found, hfound, heq⟩ := map_eq_ok_iff.mp (hread.symm.trans h)
  obtain rfl := Descriptor.ofClass.inj heq
  obtain ⟨-, hm, -⟩ := ClassDescription.parts_of_ofMembers hfound
  rw [Methods.keys, ((Methods.ofJson_eq_ok_iff ..).mp hm).2,
    Json.signatures, hmethods, List.map_map]
  rfl

/-- A value is refused exactly if it has both keys of a class and is not a well-formed one. -/
theorem exists_ofJson_eq_error_iff (value : Json) :
    (∃ error, ofJson value = .error error) ↔ value.IsClassShaped ∧ ¬ value.WellFormedClass := by
  have hother := ofJson_eq_other_iff value
  have hclass := exists_ofJson_eq_ofClass_iff value
  cases hread : ofJson value with
  | error error =>
    have hshape : value.IsClassShaped := by
      by_contra hshape
      cases hread.symm.trans (ofJson_of_not_isClassShaped hshape)
    have hmalformed : ¬ value.WellFormedClass := by
      rw [← hclass, hread]
      rintro ⟨c, ⟨⟩⟩
    exact ⟨fun _ => ⟨hshape, hmalformed⟩, fun _ => ⟨error, rfl⟩⟩
  | ok d =>
    refine ⟨fun ⟨_, h⟩ => (nomatch h), fun ⟨hshape, hmalformed⟩ => ?_⟩
    cases d with
    | ofClass c => exact absurd (hclass.mp ⟨c, hread⟩) hmalformed
    | other kept => exact absurd hshape ((hother kept).mp hread).1

end Descriptor

namespace Environment

/-- A member is read exactly if its value is a descriptor. -/
theorem readMember_eq_ok_iff (member : String × Json) (place : String × Descriptor) :
    readMember member = .ok place ↔
      place.1 = member.1 ∧ Descriptor.ofJson member.2 = .ok place.2 := by
  obtain ⟨entity, d⟩ := place
  rw [readMember, bind_eq_ok_iff]
  constructor
  · rintro ⟨found, hfound, heq⟩
    obtain ⟨rfl, rfl⟩ := Prod.mk.inj (Except.ok.inj heq)
    exact ⟨rfl, hfound⟩
  · rintro ⟨rfl, hread⟩
    exact ⟨d, hread, rfl⟩

/-- Read a module with its name from a value. -/
def moduleOf (module : String × Json) : Except ModelError (String × Dict Descriptor) :=
  readModule (module.1, outlineOf module.2)

/-- A module is read exactly if it is an object whose members are. -/
theorem moduleOf_eq_ok_iff (module : String × Json) (entry : String × Dict Descriptor) :
    moduleOf module = .ok entry ↔ ∃ members places, module.2 = .object members ∧
      members.mapM readMember = .ok places ∧ entry = (module.1, .ofList places) := by
  rw [moduleOf, readModule, bind_eq_ok_iff]
  simp only [mapError_eq_ok_iff, outlineOf_eq_ok_iff, bind_eq_ok_iff]
  constructor
  · rintro ⟨members, hmembers, places, hplaces, heq⟩
    exact ⟨members, places, hmembers, hplaces, (Except.ok.inj heq).symm⟩
  · rintro ⟨members, places, hmembers, hplaces, rfl⟩
    exact ⟨members, hmembers, places, hplaces, rfl⟩

/-- A model is read exactly if it is an object whose modules are. -/
theorem ofJson_eq_ok_iff (value : Json) (env : Environment) :
    ofJson value = .ok env ↔ ∃ modules entries, value = .object modules ∧
      modules.mapM moduleOf = .ok entries ∧ env = ⟨.ofList entries⟩ := by
  cases value with
  | object modules =>
    have hread : ofJson (.object modules) = modules.mapM moduleOf >>= fun entries =>
      .ok ⟨.ofList entries⟩ := by
      change (List.mapM readModule (modules.map _) >>= _) = _
      rw [List.mapM_map]
      rfl
    simp only [hread, bind_eq_ok_iff]
    constructor
    · rintro ⟨entries, hentries, heq⟩
      exact ⟨modules, entries, rfl, hentries, (Except.ok.inj heq).symm⟩
    · rintro ⟨_, entries, heq, hentries, rfl⟩
      obtain rfl := Json.object.inj heq
      exact ⟨entries, hentries, rfl⟩
  | null | bool _ | integer _ | double _ | string _ | array _ =>
    constructor
    · rintro ⟨⟩
    · rintro ⟨modules, entries, heq, -⟩
      cases heq

/-- A module is read exactly if it is an object whose members are descriptors. -/
theorem exists_moduleOf_eq_ok_iff (module : String × Json) :
    (∃ entry, moduleOf module = .ok entry) ↔
      module.2.IsObjectOf fun part => ∃ d, Descriptor.ofJson part = .ok d := by
  have hmember (member : String × Json) :
      (∃ place, readMember member = .ok place) ↔ ∃ d, Descriptor.ofJson member.2 = .ok d := by
    simp [readMember_eq_ok_iff]
  simp only [Json.isObjectOf_iff, moduleOf_eq_ok_iff, ← hmember, ← exists_mapM_eq_ok_iff readMember]
  constructor
  · rintro ⟨_, members, places, hvalue, hplaces, -⟩
    exact ⟨members, hvalue, places, hplaces⟩
  · rintro ⟨members, hvalue, places, hplaces⟩
    exact ⟨_, members, places, hvalue, hplaces, rfl⟩

/-- A value is read as a model exactly if it is an object of objects whose members are
descriptors. -/
theorem exists_ofJson_eq_ok_iff (value : Json) :
    (∃ env, ofJson value = .ok env) ↔
      value.IsObjectOf fun members => members.IsObjectOf fun part =>
        ∃ d, Descriptor.ofJson part = .ok d := by
  rw [Json.isObjectOf_iff]
  simp only [ofJson_eq_ok_iff, ← exists_moduleOf_eq_ok_iff, ← exists_mapM_eq_ok_iff moduleOf]
  constructor
  · rintro ⟨_, modules, entries, hvalue, hentries, -⟩
    exact ⟨modules, hvalue, entries, hentries⟩
  · rintro ⟨modules, hvalue, entries, hentries⟩
    exact ⟨_, modules, entries, hvalue, hentries, rfl⟩

/-- Reading a module from a value keeps its name. -/
theorem keysAgree_moduleOf : KeysAgree fun module entry => moduleOf module = .ok entry :=
  fun _ entry => keysAgree_readModule _ entry

/-- A module has the entities that an object has as members, each with what is read from the
member. -/
structure ReadFrom (members : Json) (descriptors : Dict Descriptor) : Prop where
  keys : descriptors.keys = members.keys
  descriptor (entity : String) : Option.Rel (fun part d => Descriptor.ofJson part = .ok d)
    (members.member? entity) (descriptors.get? entity)

/-- A module that is read has the entities of its object. -/
theorem readFrom_of_moduleOf {module : String × Json} {entry : String × Dict Descriptor}
    (hordered : module.2.Ordered) (h : moduleOf module = .ok entry) :
    ReadFrom module.2 entry.2 := by
  obtain ⟨members, places, hvalue, hplaces, rfl⟩ := (moduleOf_eq_ok_iff module entry).mp h
  rw [hvalue] at hordered ⊢
  have hascending := ((Json.ordered_object_iff members).mp hordered).1
  rw [mapM_eq_ok_iff] at hplaces
  refine ⟨Dict.keys_ofList_of_forall₂ keysAgree_readMember hascending hplaces, fun entity => ?_⟩
  have hrel := Dict.rel_get?_ofList keysAgree_readMember hascending hplaces entity
  simp only [readMember_eq_ok_iff, true_and] at hrel
  exact hrel

section Contents

variable {value : Json} {env : Environment} (hordered : value.Ordered)
  (hread : ofJson value = .ok env)
include hordered hread

/-- A model has the modules of the object that it is read from. -/
theorem moduleNames_of_ofJson : env.moduleNames = value.keys := by
  obtain ⟨modules, entries, rfl, hentries, rfl⟩ := (ofJson_eq_ok_iff value env).mp hread
  exact Dict.keys_ofList_of_forall₂ keysAgree_moduleOf
    ((Json.ordered_object_iff modules).mp hordered).1
    ((mapM_eq_ok_iff ..).mp hentries)

/-- Each module of a model is read from the object under its name. -/
theorem readFrom_of_ofJson (module : String) :
    Option.Rel ReadFrom (value.member? module) (env.module? module) := by
  obtain ⟨modules, entries, rfl, hentries, rfl⟩ := (ofJson_eq_ok_iff value env).mp hread
  obtain ⟨hascending, hmembers⟩ := (Json.ordered_object_iff modules).mp hordered
  have hmodules : List.Forall₂ (fun module entry => module.2.Ordered ∧ moduleOf module = .ok entry)
      modules entries := (List.forall₂_and_left _ _).mpr ⟨hmembers, (mapM_eq_ok_iff ..).mp hentries⟩
  have hrel :=
    Dict.rel_get?_ofList (fun _ entry h => keysAgree_moduleOf _ entry h.2)
      hascending hmodules module
  change Option.Rel ReadFrom (findEntry module modules) ((Dict.ofList entries).get? module)
  generalize findEntry module modules = found, (Dict.ofList entries).get? module = read at hrel ⊢
  cases hrel with
  | none => exact .none
  | some h => exact .some (readFrom_of_moduleOf h.1 h.2)

/-- A module has the entities of the object under its name. -/
theorem entityNames_of_ofJson (module : String) :
    env.entityNames module = (value.member? module).map Json.keys := by
  have hmodule := readFrom_of_ofJson hordered hread module
  rw [entityNames]
  generalize value.member? module = found, env.module? module = read at hmodule ⊢
  cases hmodule with
  | none => rfl
  | some h => exact congrArg some h.keys

/-- A descriptor stands exactly where a member of the object does, and is read from it. -/
theorem rel_descriptor?_of_ofJson (module entity : String) :
    Option.Rel (fun part d => Descriptor.ofJson part = .ok d) (value.place? module entity)
      (env.descriptor? module entity) := by
  have hmodule := readFrom_of_ofJson hordered hread module
  rw [descriptor?, Json.place?]
  generalize value.member? module = found, env.module? module = read at hmodule ⊢
  cases hmodule with
  | none => exact .none
  | some h => exact h.descriptor entity

end Contents

/-- Reading models. A descriptor is kept as it is exactly if it has not both keys of a class.
Otherwise it is read as a class with the signatures of its entries exactly if it is a well-formed
one, and refused if it is not. A model is read exactly if it is an object of objects whose members
are descriptors, and it has exactly their modules and entities, each with what is read from the
member at its place. -/
theorem accepted_exactly (value : Json) :
    (∀ kept, Descriptor.ofJson value = .ok (.other kept) ↔ ¬ value.IsClassShaped ∧ kept = value) ∧
    ((∃ c, Descriptor.ofJson value = .ok (.ofClass c)) ↔ value.WellFormedClass) ∧
    (∀ c, Descriptor.ofJson value = .ok (.ofClass c) → c.methods.keys = value.signatures) ∧
    ((∃ error, Descriptor.ofJson value = .error error) ↔
      value.IsClassShaped ∧ ¬ value.WellFormedClass) ∧
    ((∃ env, ofJson value = .ok env) ↔
      value.IsObjectOf fun members => members.IsObjectOf fun part =>
        ∃ d, Descriptor.ofJson part = .ok d) ∧
    (∀ env, value.Ordered → ofJson value = .ok env → env.moduleNames = value.keys ∧
      ∀ module, env.entityNames module = (value.member? module).map Json.keys ∧
        ∀ entity, Option.Rel (fun part d => Descriptor.ofJson part = .ok d)
          (value.place? module entity) (env.descriptor? module entity)) := by
  refine ⟨Descriptor.ofJson_eq_other_iff value, Descriptor.exists_ofJson_eq_ofClass_iff value,
    fun c => Descriptor.keys_of_ofJson, Descriptor.exists_ofJson_eq_error_iff value,
    exists_ofJson_eq_ok_iff value,
    fun env hordered hread => ⟨moduleNames_of_ofJson hordered hread, fun module => ?_⟩⟩
  exact ⟨entityNames_of_ofJson hordered hread module,
    rel_descriptor?_of_ofJson hordered hread module⟩

/-- A class with methods in both notations. -/
def circle : Json :=
  .object [
    ("attrs", .object [("radius", .string "float64")]),
    ("methods", .array [
      .array [.string "area"],
      .object [("name", .string "scale"),
        ("params", .array [.array [.string "by", .string "float64"]])]]),
    ("name", .string "Circle")]

/-- A class with the same signature twice. -/
def overlap : Json :=
  .object [
    ("attrs", .object []),
    ("methods", .array [
      .array [.string "area"],
      .object [("name", .string "area"), ("returns", .string "float64")]]),
    ("name", .string "Overlap")]

/-- A module with a class and another value. -/
def gallery : Json := .object [("geometry", .object [("Circle", circle), ("unit", .integer 3)])]

/-- The class of the module is read with its two methods and the other value is kept, while a class
with the same signature twice is malformed. -/
theorem accepted_exactly_gallery :
    (gallery.Ordered ∧ ∃ env, ofJson gallery = .ok env ∧ env.moduleNames = ["geometry"] ∧
      env.entityNames "geometry" = some ["Circle", "unit"]) ∧
    (∃ c, Descriptor.ofJson circle = .ok (.ofClass c) ∧
      c.methods.keys = [⟨"area", []⟩, ⟨"scale", [⟨"by", .leaf "float64", none⟩]⟩]) ∧
    (overlap.IsClassShaped ∧ ¬ overlap.WellFormedClass) := by
  have hordered : gallery.Ordered := by
    simp [gallery, circle, Json.Ordered, Json.OrderedItems, Json.OrderedMembers]
    decide
  obtain ⟨-, -, -, -, -, hcontents⟩ := accepted_exactly gallery
  obtain ⟨-, -, hkeys, -⟩ := accepted_exactly circle
  obtain ⟨-, -, -, hrefused, -⟩ := accepted_exactly overlap
  obtain ⟨hnames, hmodules⟩ := hcontents _ hordered rfl
  exact ⟨⟨hordered, _, rfl, hnames, (hmodules "geometry").1⟩,
    ⟨_, rfl, hkeys _ rfl⟩, hrefused.mp ⟨_, rfl⟩⟩

end Environment

end TypeSieve
