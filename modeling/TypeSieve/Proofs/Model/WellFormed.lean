import TypeSieve.Proofs.Model.SavedMethods

/-!
# Well-formed method lists

A parameter and a method entry are records: objects, or arrays of at most three fields in order. A
parameter is read exactly if its name is a string and it has a type. An entry is read exactly if its
name is a string and its parameters are an array of well-formed ones, or absent. What is read is
made of these fields, and a method list is read exactly if the signatures of its entries are
distinct.
-/

namespace TypeSieve

namespace Json

/-- An object, or an array of at most three fields. -/
def IsRecord : Json → Prop
  | .object _ => True
  | .array fields => fields.length ≤ 3
  | _ => False

/-- The text of a field, empty where the field is no string. -/
def fieldText (key : String) (position : Nat) (value : Json) : String :=
  match value.field? key position with
  | some (.string text) => text
  | _ => ""

/-- A record with a name and a type. -/
structure WellFormedParam (value : Json) : Prop where
  record : value.IsRecord
  name : ∃ text, value.field? "name" 0 = some (.string text)
  type : ∃ type, value.field? "type" 1 = some type

/-- A record with a name, whose parameters are an array of well-formed ones if they are present. -/
structure WellFormedEntry (value : Json) : Prop where
  record : value.IsRecord
  name : ∃ text, value.field? "name" 0 = some (.string text)
  params : ∀ list ∈ value.field? "params" 1, list.IsListOf WellFormedParam

/-- The parameter that a record stands for. -/
def param (value : Json) : Param :=
  .ofFields (value.fieldText "name" 0) ((value.field? "type" 1).getD .null)
    (value.field? "default" 2)

/-- The parameters in the items of a list, or none where there is no list. -/
def params (list : Option Json) : List Param := ((list.map parts).getD []).map param

/-- The signature that a record stands for. -/
def signature (value : Json) : Signature :=
  ⟨value.fieldText "name" 0, params (value.field? "params" 1)⟩

/-- The method that a record stands for. -/
def entry (value : Json) : MethodEntry :=
  (value.signature, (value.field? "returns" 2).bind Methods.returnsOfJson)

/-- A field that is a string has this text. -/
theorem fieldText_eq {key : String} {position : Nat} {value : Json} {text : String}
    (h : value.field? key position = some (.string text)) :
    value.fieldText key position = text := by
  rw [fieldText, h]

/-- Where an item is read exactly if it has a property, a value is read as a list of items exactly
if it is an array of items that have it. -/
theorem asArray_mapM_eq_ok_iff {α : Type} {read : Json → Except ModelError α} {P : Json → Prop}
    {make : Json → α} (h : ∀ item result, read item = .ok result ↔ P item ∧ result = make item)
    (value : Json) (results : List α) :
    (value.asArray >>= fun items => items.mapM read) = .ok results ↔
      value.IsListOf P ∧ results = value.parts.map make := by
  cases value with
  | array items => exact mapM_eq_ok_iff_forall fun item _ => h item
  | null | bool _ | integer _ | double _ | string _ | object _ =>
    exact ⟨nofun, fun hlist => hlist.1.elim⟩

end Json

namespace Param

/-- What is read as a parameter is a record. -/
theorem isRecord_of_ofJson {value : Json} {p : Param} (h : ofJson value = .ok p) :
    value.IsRecord := by
  unfold ofJson at h
  split at h
  · trivial
  · cases h
  · obtain ⟨name, -, h⟩ := bind_eq_ok_iff.mp h
    cases h
  · exact Nat.le_succ 2
  · exact le_rfl
  · obtain ⟨name, -, h⟩ := bind_eq_ok_iff.mp h
    cases h
  · cases h

/-- A value is read as a parameter exactly if it is well formed, and as the parameter that it stands
for. -/
theorem ofJson_eq_ok_iff (value : Json) (p : Param) :
    ofJson value = .ok p ↔ value.WellFormedParam ∧ p = value.param := by
  constructor
  · intro h
    obtain ⟨name, type, rfl, hname, htype⟩ := exists_fields_of_ofJson h
    refine ⟨⟨isRecord_of_ofJson h, ⟨name, hname⟩, type, htype⟩, ?_⟩
    rw [Json.param, Json.fieldText_eq hname, htype, Option.getD_some]
  · rintro ⟨⟨hrecord, ⟨name, hname⟩, type, htype⟩, rfl⟩
    rw [Json.param, Json.fieldText_eq hname, htype, Option.getD_some]
    cases value with
    | object members => exact ofJson_object hname htype rfl
    | array fields =>
      rcases fields with _ | ⟨first, _ | ⟨second, _ | ⟨third, _ | ⟨fourth, more⟩⟩⟩⟩
      · cases hname
      · cases htype
      · obtain rfl := Option.some.inj hname
        obtain rfl := Option.some.inj htype
        rfl
      · obtain rfl := Option.some.inj hname
        obtain rfl := Option.some.inj htype
        rfl
      · exact absurd hrecord (by simp [Json.IsRecord])
    | null | bool _ | integer _ | double _ | string _ => cases hname

/-- A value is read as parameters exactly if it is an array of well-formed ones. -/
theorem listOfJson_eq_ok_iff (value : Json) (list : List Param) :
    listOfJson value = .ok list ↔
      value.IsListOf Json.WellFormedParam ∧ list = value.parts.map Json.param :=
  Json.asArray_mapM_eq_ok_iff ofJson_eq_ok_iff value list

/-- Parameters that may be absent are read exactly if they are absent or an array of well-formed
ones. -/
theorem asField_listOfJson_iff (found : Option Json) (list : List Param) :
    (∃ params, Json.asField listOfJson found = .ok params ∧ list = params.getD []) ↔
      (∀ value ∈ found, value.IsListOf Json.WellFormedParam) ∧ list = Json.params found := by
  cases found with
  | none => simp [Json.asField, Json.params]
  | some value => simp [Json.asField, map_eq_ok_iff, listOfJson_eq_ok_iff, Json.params, and_assoc]

end Param

namespace Methods

/-- What is read as an entry is a record. -/
theorem isRecord_of_entryOfJson {value : Json} {entry : MethodEntry}
    (h : entryOfJson value = .ok entry) : value.IsRecord := by
  unfold entryOfJson at h
  split at h
  · trivial
  · cases h
  · exact Nat.le_add_left 1 2
  · exact Nat.le_succ 2
  · exact le_rfl
  · obtain ⟨name, -, h⟩ := bind_eq_ok_iff.mp h
    obtain ⟨params, -, h⟩ := bind_eq_ok_iff.mp h
    cases h
  · cases h

/-- A value is read as an entry exactly if it is well formed, and as the method that it stands
for. -/
theorem entryOfJson_eq_ok_iff (value : Json) (entry : MethodEntry) :
    entryOfJson value = .ok entry ↔ value.WellFormedEntry ∧ entry = value.entry := by
  constructor
  · intro h
    obtain ⟨hname, hparams, hreturns⟩ := exists_fields_of_entryOfJson h
    obtain ⟨hlist, hparams⟩ := (Param.asField_listOfJson_iff ..).mp hparams
    refine ⟨⟨isRecord_of_entryOfJson h, ⟨_, hname⟩, hlist⟩, Prod.ext ?_ hreturns⟩
    rw [Json.entry, Json.signature, Json.fieldText_eq hname, ← hparams]
  · rintro ⟨⟨hrecord, ⟨name, hname⟩, hlist⟩, rfl⟩
    obtain ⟨params, hparams, heq⟩ := (Param.asField_listOfJson_iff _ _).mpr ⟨hlist, rfl⟩
    rw [Json.entry, Json.signature, Json.fieldText_eq hname, heq]
    cases value with
    | object members =>
      change findEntry "name" members = _ at hname
      change Json.asField _ (findEntry "params" members) = _ at hparams
      rw [entryOfJson, hname, hparams]
      rfl
    | array fields =>
      rcases fields with _ | ⟨first, _ | ⟨second, _ | ⟨third, _ | ⟨fourth, more⟩⟩⟩⟩
      · cases hname
      · obtain rfl := Option.some.inj hname
        obtain rfl := Except.ok.inj hparams
        rfl
      · obtain rfl := Option.some.inj hname
        obtain ⟨list, hread, rfl⟩ := map_eq_ok_iff.mp hparams
        exact bind_eq_ok_iff.mpr ⟨name, rfl, bind_eq_ok_iff.mpr ⟨list, hread, rfl⟩⟩
      · obtain rfl := Option.some.inj hname
        obtain ⟨list, hread, rfl⟩ := map_eq_ok_iff.mp hparams
        exact bind_eq_ok_iff.mpr ⟨name, rfl, bind_eq_ok_iff.mpr ⟨list, hread, rfl⟩⟩
      · exact absurd hrecord (by simp [Json.IsRecord])
    | null | bool _ | integer _ | double _ | string _ => cases hname

/-- A value is read as methods exactly if it is an array of well-formed entries, with the methods
that they stand for. -/
theorem ofJson_eq_ok_iff (value : Json) (m : Methods) :
    ofJson value = .ok m ↔
      value.IsListOf Json.WellFormedEntry ∧ m.entries = value.parts.map Json.entry := by
  have hsteps : ofJson value = (value.asArray >>= fun items => items.mapM entryOfJson) >>=
      fun entries => (ofEntries entries).mapError .duplicate := (bind_assoc ..).symm
  rw [hsteps, bind_eq_ok_iff, ← Json.asArray_mapM_eq_ok_iff entryOfJson_eq_ok_iff]
  simp only [mapError_eq_ok_iff, ofEntries_eq_ok_iff]
  constructor
  · rintro ⟨entries, hentries, rfl⟩
    exact hentries
  · intro hentries
    exact ⟨m.entries, hentries, rfl⟩

/-- A value is read as methods exactly if it is an array of well-formed entries with distinct
signatures. -/
theorem exists_ofJson_eq_ok_iff (value : Json) :
    (∃ m, ofJson value = .ok m) ↔
      value.IsListOf Json.WellFormedEntry ∧ (value.parts.map Json.signature).Nodup := by
  have hkeys : (value.parts.map Json.entry).map Prod.fst = value.parts.map Json.signature := by
    rw [List.map_map]
    rfl
  constructor
  · rintro ⟨m, h⟩
    obtain ⟨hlist, hentries⟩ := (ofJson_eq_ok_iff value m).mp h
    rw [← hkeys, ← hentries]
    exact ⟨hlist, m.distinct⟩
  · rintro ⟨hlist, hdistinct⟩
    exact ⟨⟨value.parts.map Json.entry, hkeys ▸ hdistinct⟩, (ofJson_eq_ok_iff ..).mpr ⟨hlist, rfl⟩⟩

end Methods

end TypeSieve
