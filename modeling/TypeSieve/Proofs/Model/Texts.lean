import TypeSieve.Proofs.Json.Readings
import TypeSieve.Proofs.Model.SavedModels

/-!
# Models in texts

A model is read from a text member by member, repeated keys included, and the value of the text has
each key once. A text that is read as a model is read as the model that its value is read as.
-/

namespace TypeSieve

variable {α β ε : Type} {depth : Nat}

/-- Where keys are kept, the canonical entries are read as the canonical ones of what is read. -/
theorem mapM_canonicalEntries {read : String × α → Except ε (String × β)}
    (hkeys : KeysAgree fun entry result => read entry = .ok result) {entries : List (String × α)}
    {results : List (String × β)} (h : entries.mapM read = .ok results) :
    (canonicalEntries entries).mapM read = .ok (canonicalEntries results) := by
  rw [mapM_eq_ok_iff] at h ⊢
  exact forall₂_canonicalEntries hkeys h

/-- The dictionary of the canonical entries is that of the entries. -/
theorem Dict.ofList_canonicalEntries (entries : List (String × α)) :
    Dict.ofList (canonicalEntries entries) = Dict.ofList entries :=
  Dict.ext (canonicalEntries_eq_self (ascending_canonicalEntries entries))

namespace Environment

/-- Reading a member of a module keeps its key. -/
theorem keysAgree_readMember : KeysAgree fun member entry => readMember member = .ok entry := by
  intro member entry h
  obtain ⟨d, -, h⟩ := bind_eq_ok_iff.mp h
  obtain rfl := Except.ok.inj h
  rfl

/-- Reading a module keeps its name. -/
theorem keysAgree_readModule : KeysAgree fun module entry => readModule module = .ok entry := by
  intro module entry h
  obtain ⟨members, -, h⟩ := bind_eq_ok_iff.mp h
  obtain ⟨entries, -, h⟩ := bind_eq_ok_iff.mp h
  obtain rfl := Except.ok.inj h
  rfl

/-- A module that is read from members is read from the canonical ones. -/
theorem readModule_canonicalEntries {module : String × Outline Json}
    {entry : String × Dict Descriptor} (h : readModule module = .ok entry) :
    readModule (module.1, module.2.map canonicalEntries) = .ok entry := by
  obtain ⟨members, hmembers, h⟩ := bind_eq_ok_iff.mp h
  obtain ⟨entries, hentries, h⟩ := bind_eq_ok_iff.mp h
  obtain rfl := Except.ok.inj h
  rw [mapError_eq_ok_iff.mp hmembers]
  refine bind_eq_ok_iff.mpr ⟨canonicalEntries members, rfl, ?_⟩
  refine bind_eq_ok_iff.mpr ⟨_, mapM_canonicalEntries keysAgree_readMember hentries, ?_⟩
  rw [Dict.ofList_canonicalEntries]
  rfl

/-- The members of the modules of a text as the value of the text has them. -/
def canonicalOutline (outline : Outline (Outline Json)) : Outline (Outline Json) :=
  outline.map fun modules => canonicalEntries (modules.map fun module =>
    (module.1, module.2.map canonicalEntries))

/-- A model that is read from members is read from the canonical ones. -/
theorem ofOutline_canonicalOutline {outline : Outline (Outline Json)} {env : Environment}
    (h : ofOutline outline = .ok env) : ofOutline (canonicalOutline outline) = .ok env := by
  rw [ofOutline_eq] at h ⊢
  obtain ⟨modules, hmodules, h⟩ := bind_eq_ok_iff.mp h
  obtain ⟨entries, hentries, h⟩ := bind_eq_ok_iff.mp h
  obtain rfl := Except.ok.inj h
  have hcanonical : (modules.map fun module => (module.1, module.2.map canonicalEntries)).mapM
      readModule = .ok entries := by
    rw [mapM_eq_ok_iff] at hentries ⊢
    rw [List.forall₂_map_left_iff]
    exact hentries.imp fun _ _ => readModule_canonicalEntries
  rw [canonicalOutline, mapError_eq_ok_iff.mp hmodules]
  refine bind_eq_ok_iff.mpr ⟨_, rfl, ?_⟩
  refine bind_eq_ok_iff.mpr ⟨_, mapM_canonicalEntries keysAgree_readModule hcanonical, ?_⟩
  rw [Dict.ofList_canonicalEntries]
  rfl

/-- The value of a tree that is no object has no members. -/
theorem outlineOf_value_eq_error {form : Json.Form} {value : Json}
    (hvalue : form.value depth = some value) (hshape : ∀ members, form ≠ .object members) :
    outlineOf value = .error value := by
  cases form with
  | null =>
    obtain rfl := Option.some.inj hvalue
    rfl
  | bool b =>
    obtain rfl := Option.some.inj hvalue
    rfl
  | numeral n =>
    rcases Json.Numeral.value_cases hvalue with ⟨i, rfl, -⟩ | ⟨x, rfl⟩
    · rfl
    · rfl
  | text pieces =>
    obtain ⟨text, -, rfl⟩ := Option.map_eq_some_iff.mp hvalue
    rfl
  | array items =>
    cases depth with
    | zero => cases hvalue
    | succ inner =>
      obtain ⟨values, -, rfl⟩ := Option.map_eq_some_iff.mp hvalue
      rfl
  | object members => exact absurd rfl (hshape members)

/-- The value of a tree has the members of the tree, once each and in key order, if it has what they
are read as. -/
theorem map_outlineOf_value {read : Nat → Json.Form → Option α} {f : Json → β} {g : α → β}
    {form : Json.Form} {value : Json} {outline : Outline α} (hvalue : form.value depth = some value)
    (houtline : form.members? read depth = some outline)
    (h : ∀ inner part v a, part.value inner = some v → read inner part = some a → f v = g a) :
    (outlineOf value).map (fun members => members.map fun member => (member.1, f member.2)) =
      outline.map fun entries =>
        canonicalEntries (entries.map fun entry => (entry.1, g entry.2)) := by
  by_cases hshape : ∃ members, form = .object members
  · obtain ⟨members, rfl⟩ := hshape
    cases depth with
    | zero => cases hvalue
    | succ inner =>
      obtain ⟨values, hvalues, rfl⟩ := Option.map_eq_some_iff.mp hvalue
      obtain ⟨entries, hentries, heq⟩ := Option.bind_eq_some_iff.mp houtline
      obtain rfl := Option.some.inj heq
      change members.mapM (Json.Form.readMember (read inner)) = some entries at hentries
      rw [Json.Form.memberValues_eq_mapM] at hvalues
      have hlists := Json.Form.map_eq_of_mapM_readMember hvalues hentries (h inner)
      change Except.ok ((canonicalEntries values).map _) =
        Except.ok (canonicalEntries (entries.map _))
      rw [← hlists, canonicalEntries_map]
  · have hread : form.members? read depth = (form.value depth).map .error := by
      cases form with
      | object members => exact absurd ⟨members, rfl⟩ hshape
      | null | bool _ | numeral _ | text _ | array _ => rfl
    rw [hread, hvalue] at houtline
    rw [← Option.some.inj houtline, outlineOf_value_eq_error hvalue (not_exists.mp hshape)]
    rfl

/-- The value of a text is read as a model from the canonical members of the text. -/
theorem ofJson_eq_of_outlineOfText {text : String} {value : Json} {outline : Outline (Outline Json)}
    (hvalue : Json.parse? text = some value) (houtline : outlineOfText text = some outline) :
    ofJson value = ofOutline (canonicalOutline outline) := by
  obtain ⟨form, hform, hvalue⟩ := Option.bind_eq_some_iff.mp hvalue
  rw [outlineOfText, hform, Option.bind_some] at houtline
  refine congrArg ofOutline
    (map_outlineOf_value hvalue houtline fun inner part v o hpart hread => ?_)
  have hmembers :=
    @map_outlineOf_value _ _ inner _ id id _ _ _ hpart hread fun inner part v a hv ha =>
    Option.some.inj (hv.symm.trans ha)
  have hid : (outlineOf v).map (fun members => members) = outlineOf v := by
    cases outlineOf v <;> rfl
  simp only [id, List.map_id', hid] at hmembers
  exact hmembers

/-- A text that is read as a model is read as its value is. -/
theorem ofJson_of_parse {text : String} {value : Json} {env : Environment}
    (hvalue : Json.parse? text = some value) (h : parse text = .ok env) :
    ofJson value = .ok env := by
  unfold parse at h
  split at h
  · cases h
  · next outline houtline =>
    rw [ofJson_eq_of_outlineOfText hvalue houtline]
    exact ofOutline_canonicalOutline (mapError_eq_ok_iff.mp h)

end Environment

end TypeSieve
