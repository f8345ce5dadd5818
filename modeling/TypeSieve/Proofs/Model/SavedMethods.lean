import TypeSieve.Model.Decode
import TypeSieve.Model.Encode
import TypeSieve.Proofs.Json.ReadBack
import TypeSieve.Proofs.TypeExpr.RoundTrip

/-!
# Saved methods

Parameters and method entries that were read from plain values are read back from what is written
for them, in the same order and with the same defaults, a default of null included. Where an entry
was an array, or lacked its parameters, what is written is another value with the same meaning.
-/

namespace TypeSieve

variable {depth : Nat}

/-- A field that has to be present is one that was found. -/
theorem required_eq_ok_iff {α : Type} {field : String} {found : Option α} {value : α} :
    required field found = .ok value ↔ found = some value := by
  cases found <;> simp [required]

/-- A string that is read is one. -/
theorem asString_eq_ok_iff {value : Json} {text : String} :
    value.asString = .ok text ↔ value = .string text := by
  cases value <;> simp [Json.asString]

/-- A list of items that is read is an array of them. -/
theorem asArray_eq_ok_iff {value : Json} {items : List Json} :
    value.asArray = .ok items ↔ value = .array items := by
  cases value <;> simp [Json.asArray]

/-- A list of members that is read is an object of them. -/
theorem asObject_eq_ok_iff {value : Json} {members : List (String × Json)} :
    value.asObject = .ok members ↔ value = .object members := by
  cases value <;> simp [Json.asObject]

/-- A field that is there and is read was there as a string. -/
theorem asField_asString_eq_some {found : Option Json} {text : String}
    (h : Json.asField Json.asString found = .ok (some text)) : found = some (.string text) := by
  cases found with
  | none => cases h
  | some value =>
    obtain ⟨read, hread, hsome⟩ := map_eq_ok_iff.mp h
    obtain rfl := Option.some.inj hsome
    exact congrArg some (asString_eq_ok_iff.mp hread)

namespace Param

/-- A parameter is made of the fields of the value that it is read from, in either notation. -/
theorem exists_fields_of_ofJson {value : Json} {p : Param} (h : ofJson value = .ok p) :
    ∃ name type, p = ofFields name type (value.field? "default" 2) ∧
      value.field? "name" 0 = some (.string name) ∧ value.field? "type" 1 = some type := by
  unfold ofJson at h
  split at h
  · next members =>
    obtain ⟨name, hname, h⟩ := bind_eq_ok_iff.mp h
    obtain ⟨text, htext, h⟩ := bind_eq_ok_iff.mp h
    obtain ⟨type, htype, h⟩ := bind_eq_ok_iff.mp h
    have hp := Except.ok.inj h
    obtain rfl := required_eq_ok_iff.mp htext
    exact ⟨text, type, hp.symm, asField_asString_eq_some hname, required_eq_ok_iff.mp htype⟩
  · cases h
  · obtain ⟨name, -, h⟩ := bind_eq_ok_iff.mp h
    cases h
  · next name type =>
    obtain ⟨text, htext, h⟩ := bind_eq_ok_iff.mp h
    obtain rfl := asString_eq_ok_iff.mp htext
    exact ⟨text, type, (Except.ok.inj h).symm, rfl, rfl⟩
  · next name type default =>
    obtain ⟨text, htext, h⟩ := bind_eq_ok_iff.mp h
    obtain rfl := asString_eq_ok_iff.mp htext
    exact ⟨text, type, (Except.ok.inj h).symm, rfl, rfl⟩
  · obtain ⟨name, -, h⟩ := bind_eq_ok_iff.mp h
    cases h
  · cases h

/-- The members that a parameter is written as. -/
def fields (name : String) (type : Json) (default : Option Json) : List (String × Json) :=
  [("name", .string name), ("type", type)] ++ (default.map fun value => ("default", value)).toList

/-- A parameter of plain fields is written with these fields. -/
theorem toJson_ofFields (name : String) {type : Json} {default : Option Json}
    (htype : type.Plain depth) (hdefault : ∀ part ∈ default, part.Plain depth)
    (hle : depth ≤ Json.depthLimit) :
    (ofFields name type default).toJson = .object (fields name type default) := by
  have htext : (ofFields name type default).default? = default := by
    cases default with
    | none => rfl
    | some value => exact congrArg some (TypeExpr.literalValue_compact (hdefault value rfl) hle)
  rw [toJson, htext]
  simp only [ofFields, TypeExpr.toJson_ofJson htype hle, fields]

/-- An object with the fields of a parameter is read as the parameter. -/
theorem ofJson_object {members : List (String × Json)} {name : String} {type : Json}
    {default : Option Json} (hname : findEntry "name" members = some (.string name))
    (htype : findEntry "type" members = some type)
    (hdefault : findEntry "default" members = default) :
    ofJson (.object members) = .ok (ofFields name type default) := by
  rw [ofJson, hname, htype, hdefault]
  rfl

/-- A loaded parameter is read back. -/
theorem readBack_toJson {p : Param} (h : Json.Loaded (depth + 1) ofJson (.ok p))
    (hle : depth ≤ Json.depthLimit) : Json.ReadBack (depth + 1) ofJson p.toJson p := by
  obtain ⟨value, hplain, hread⟩ := h
  obtain ⟨name, type, rfl, -, htype⟩ := exists_fields_of_ofJson hread
  have htype := hplain.parts (Json.mem_parts_of_field? htype)
  have hdefault : ∀ part ∈ value.field? "default" 2, part.Plain depth := fun part hpart =>
    hplain.parts (Json.mem_parts_of_field? hpart)
  generalize value.field? "default" 2 = default at hdefault ⊢
  have hheld : ∀ key, findEntry key (Json.held (fields name type default)) =
      (findEntry key (fields name type default)).map Json.sorted :=
    Json.findEntry_held (by cases default <;> simp [fields])
  rw [toJson_ofFields name htype hdefault hle]
  constructor
  · rw [Json.exact_object_iff]
    refine ⟨depth, rfl, ?_⟩
    cases default with
    | none => simpa [fields, Json.Exact] using htype.exact
    | some value => simpa [fields, Json.Exact] using ⟨htype.exact, (hdefault value rfl).exact⟩
  · rw [Json.sorted_object]
    refine ofJson_object ?_ ?_ ?_
    · rw [hheld]
      rfl
    · rw [hheld]
      simp [fields, findEntry, Json.sorted_eq_self htype.ordered]
    · rw [hheld]
      cases default with
      | none => rfl
      | some value => simp [fields, findEntry, Json.sorted_eq_self (hdefault value rfl).ordered]

/-- The parameters of a list were read from its items. -/
theorem exists_item_of_listOfJson {list : Json} {params : List Param}
    (h : listOfJson list = .ok params) {p : Param} (hp : p ∈ params) :
    ∃ item ∈ list.parts, ofJson item = .ok p := by
  obtain ⟨items, hitems, h⟩ := bind_eq_ok_iff.mp h
  obtain rfl := asArray_eq_ok_iff.mp hitems
  exact exists_of_mapM_eq_ok h hp

end Param

namespace Methods

/-- A return type was read from a value other than null. -/
theorem returnsOfJson_eq_some_iff {value : Json} {type : TypeExpr} :
    returnsOfJson value = some type ↔ value ≠ .null ∧ TypeExpr.ofJson value = type := by
  cases value <;> simp [returnsOfJson]

/-- An entry is made of the fields of the value that it is read from, in either notation; parameters
that are absent are none. -/
theorem exists_fields_of_entryOfJson {value : Json} {entry : MethodEntry}
    (h : entryOfJson value = .ok entry) :
    value.field? "name" 0 = some (.string entry.1.name) ∧
      (∃ params, Json.asField Param.listOfJson (value.field? "params" 1) = .ok params ∧
        entry.1.params = params.getD []) ∧
      entry.2 = (value.field? "returns" 2).bind returnsOfJson := by
  unfold entryOfJson at h
  split at h
  · next members =>
    obtain ⟨name, hname, h⟩ := bind_eq_ok_iff.mp h
    obtain ⟨params, hparams, h⟩ := bind_eq_ok_iff.mp h
    obtain ⟨text, htext, h⟩ := bind_eq_ok_iff.mp h
    obtain rfl := Except.ok.inj h
    obtain rfl := required_eq_ok_iff.mp htext
    exact ⟨asField_asString_eq_some hname, ⟨params, hparams, rfl⟩, rfl⟩
  · cases h
  · next name =>
    obtain ⟨text, htext, h⟩ := bind_eq_ok_iff.mp h
    obtain rfl := Except.ok.inj h
    obtain rfl := asString_eq_ok_iff.mp htext
    exact ⟨rfl, ⟨none, rfl, rfl⟩, rfl⟩
  · next name list =>
    obtain ⟨text, htext, h⟩ := bind_eq_ok_iff.mp h
    obtain ⟨params, hparams, h⟩ := bind_eq_ok_iff.mp h
    obtain rfl := Except.ok.inj h
    obtain rfl := asString_eq_ok_iff.mp htext
    exact ⟨rfl, ⟨some params, map_eq_ok_iff.mpr ⟨params, hparams, rfl⟩, rfl⟩, rfl⟩
  · next name list returns =>
    obtain ⟨text, htext, h⟩ := bind_eq_ok_iff.mp h
    obtain ⟨params, hparams, h⟩ := bind_eq_ok_iff.mp h
    obtain rfl := Except.ok.inj h
    obtain rfl := asString_eq_ok_iff.mp htext
    exact ⟨rfl, ⟨some params, map_eq_ok_iff.mpr ⟨params, hparams, rfl⟩, rfl⟩, rfl⟩
  · obtain ⟨text, -, h⟩ := bind_eq_ok_iff.mp h
    obtain ⟨params, -, h⟩ := bind_eq_ok_iff.mp h
    cases h
  · cases h

/-- The parameters and the return type of an entry are read from parts of the value that it was read
from. -/
theorem exists_parts_of_entryOfJson {value : Json} {entry : MethodEntry}
    (h : entryOfJson value = .ok entry) :
    (∀ p ∈ entry.1.params, ∃ list ∈ value.parts, ∃ item ∈ list.parts, Param.ofJson item = .ok p) ∧
      ∀ type ∈ entry.2, ∃ part ∈ value.parts, returnsOfJson part = some type := by
  obtain ⟨-, ⟨params, hparams, heq⟩, hreturns⟩ := exists_fields_of_entryOfJson h
  constructor
  · intro p hp
    rw [heq] at hp
    cases hlist : value.field? "params" 1 with
    | none =>
      rw [hlist] at hparams
      obtain rfl := Except.ok.inj hparams
      cases hp
    | some list =>
      rw [hlist] at hparams
      obtain ⟨found, hfound, rfl⟩ := map_eq_ok_iff.mp hparams
      exact ⟨list, Json.mem_parts_of_field? hlist, Param.exists_item_of_listOfJson hfound hp⟩
  · intro type htype
    rw [hreturns] at htype
    obtain ⟨part, hpart, hread⟩ := Option.bind_eq_some_iff.mp htype
    exact ⟨part, Json.mem_parts_of_field? hpart, hread⟩

/-- An object with the fields of an entry is read as the entry. -/
theorem entryOfJson_object {members : List (String × Json)} {name : String} {list : Json}
    {params : List Param} {returns : Option TypeExpr}
    (hname : findEntry "name" members = some (.string name))
    (hlist : findEntry "params" members = some list) (hparams : Param.listOfJson list = .ok params)
    (hreturns : (findEntry "returns" members).bind returnsOfJson = returns) :
    entryOfJson (.object members) = .ok (⟨name, params⟩, returns) := by
  have hread : Json.asField Param.listOfJson (some list) = .ok (some params) := by
    rw [Json.asField, hparams]
    rfl
  rw [entryOfJson, hname, hlist, hreturns, hread]
  rfl

/-- The members that an entry is written as. -/
def entryFields (entry : MethodEntry) : List (String × Json) :=
  [("name", .string entry.1.name), ("params", .array (entry.1.params.map Param.toJson))] ++
    (entry.2.map fun returns => ("returns", returns.toJson)).toList

/-- A loaded entry is read back. -/
theorem readBack_entryToJson {entry : MethodEntry}
    (h : Json.Loaded (depth + 3) entryOfJson (.ok entry)) (hle : depth + 2 ≤ Json.depthLimit) :
    Json.ReadBack (depth + 3) entryOfJson (entryToJson entry) entry := by
  obtain ⟨value, hplain, hread⟩ := h
  obtain ⟨hparams, hreturns⟩ := exists_parts_of_entryOfJson hread
  obtain ⟨⟨name, params⟩, returns⟩ := entry
  have hlist : ∀ p ∈ params, Json.ReadBack (depth + 1) Param.ofJson p.toJson p := by
    intro p hp
    obtain ⟨list, hlist, item, hitem, hp⟩ := hparams p hp
    exact Param.readBack_toJson ⟨item, (hplain.parts hlist).parts hitem, hp⟩ (by omega)
  obtain ⟨hexact, hitems⟩ := Json.readBack_array hlist
  have htype : ∀ type ∈ returns, type.toJson.Plain (depth + 2) ∧
      returnsOfJson type.toJson = some type := by
    intro type htype
    obtain ⟨part, hpart, hread⟩ := hreturns type htype
    obtain ⟨-, rfl⟩ := returnsOfJson_eq_some_iff.mp hread
    rw [TypeExpr.toJson_ofJson (hplain.parts hpart) hle]
    exact ⟨hplain.parts hpart, hread⟩
  have hheld : ∀ key, findEntry key (Json.held (entryFields (⟨name, params⟩, returns))) =
      (findEntry key (entryFields (⟨name, params⟩, returns))).map Json.sorted :=
    Json.findEntry_held (by cases returns <;> simp [entryFields])
  change Json.ReadBack _ _ (.object (entryFields (⟨name, params⟩, returns))) _
  constructor
  · rw [Json.exact_object_iff]
    refine ⟨depth + 2, rfl, ?_⟩
    cases returns with
    | none => simpa [entryFields, Json.Exact] using hexact
    | some type => simpa [entryFields, Json.Exact] using ⟨hexact, (htype type rfl).1.exact⟩
  · have hname : findEntry "name" (Json.held (entryFields (⟨name, params⟩, returns))) =
        some (.string name) := hheld "name"
    have hparams : findEntry "params" (Json.held (entryFields (⟨name, params⟩, returns))) =
        some (Json.array (params.map Param.toJson)).sorted := hheld "params"
    rw [Json.sorted_object]
    refine entryOfJson_object hname hparams hitems ?_
    rw [hheld]
    cases returns with
    | none => rfl
    | some type =>
      obtain ⟨hplain, hread⟩ := htype type rfl
      simpa [entryFields, findEntry, Json.sorted_eq_self hplain.ordered] using hread

/-- Adding entries succeeds exactly with the methods that have these entries behind the others. -/
theorem extend_eq_ok_iff (m : Methods) (entries : List MethodEntry) (result : Methods) :
    m.extend entries = .ok result ↔ result.entries = m.entries ++ entries := by
  induction entries generalizing m with
  | nil => simp [extend, Methods.ext_iff, eq_comm]
  | cons entry rest ih =>
    obtain ⟨key, returns⟩ := entry
    unfold extend
    split
    · next hkey =>
      -- The signature would stand twice in the result, which no method list allows.
      refine ⟨fun h => (nomatch h), fun h => ?_⟩
      have hdistinct := result.distinct
      rw [h, List.map_append, List.map_cons] at hdistinct
      exact absurd hkey ((List.nodup_middle.mp hdistinct).notMem ∘ List.mem_append_left _)
    · next hkey =>
      rw [ih, push]
      simp

/-- A list of entries makes the methods that have these entries. -/
theorem ofEntries_eq_ok_iff (entries : List MethodEntry) (m : Methods) :
    ofEntries entries = .ok m ↔ m.entries = entries := extend_eq_ok_iff empty entries m

/-- Loaded methods are read back in their order. -/
theorem readBack_toJson {m : Methods}
    (h : ∀ entry ∈ m.entries, Json.Loaded (depth + 3) entryOfJson (.ok entry))
    (hle : depth + 2 ≤ Json.depthLimit) : Json.ReadBack (depth + 4) ofJson m.toJson m := by
  obtain ⟨hexact, hentries⟩ := Json.readBack_array fun entry hentry =>
    readBack_entryToJson (h entry hentry) hle
  have hmethods := (ofEntries_eq_ok_iff m.entries m).mpr rfl
  refine ⟨hexact, bind_eq_ok_iff.mpr ⟨_, rfl, ?_⟩⟩
  exact bind_eq_ok_iff.mpr ⟨m.entries, hentries, mapError_eq_ok_iff.mpr hmethods⟩

end Methods

end TypeSieve
