import TypeSieve.Proofs.Json.Readings
import TypeSieve.Proofs.Model.SavedMethods
import Mathlib.Data.List.Induction

/-!
# Built method lists

Methods that are built rather than read: parameters are made with types that were read from plain
values and with any defaults, and return types are set one after another. What is written for such
methods is read with every type as it was and every default as its written value has it. One return
type does not come back: that of null is written as null, which is read as none.
-/

namespace TypeSieve

variable {depth : Nat}

/-- A list stays as it is exactly if all its items do. -/
theorem map_eq_self_iff {α : Type} (f : α → α) (xs : List α) :
    xs.map f = xs ↔ ∀ x ∈ xs, f x = x := by
  have hid := List.map_inj_left (f := f) (g := id) (l := xs)
  rwa [List.map_id] at hid

namespace Param

/-- A parameter that is made with a name and the type of a plain value, and may be given
defaults. -/
inductive Made (depth : Nat) : Param → Prop
  | new {name : String} {value : Json} : value.Plain depth → Made depth ⟨name, .ofJson value, none⟩
  | withDefault {p : Param} (value : Json) : Made depth p → Made depth (p.withDefault value)

/-- The parameter with its default as it is written. -/
def rewritten (p : Param) : Param :=
  { p with defaultText := p.defaultText.map fun text => (TypeExpr.literalValue text).compact }

/-- The type of a parameter that is made was read from a plain value. -/
theorem Made.loaded {p : Param} (h : p.Made depth) : Json.Loaded depth TypeExpr.ofJson p.type := by
  induction h with
  | new hplain => exact ⟨_, hplain, rfl⟩
  | withDefault _ _ ih => exact ih

/-- The default, if there is one, is the compact text of what it stands for. -/
def Stands (p : Param) : Prop := ∀ text ∈ p.defaultText, (TypeExpr.literalValue text).compact = text

/-- The default, if there is one, was given as a plain value. -/
def HasPlainDefault (depth : Nat) (p : Param) : Prop :=
  ∀ text ∈ p.defaultText, ∃ value : Json, value.Plain depth ∧ value.compact = text

/-- A parameter stays as it is exactly if its default stands. -/
theorem rewritten_eq_self_iff (p : Param) : p.rewritten = p ↔ p.Stands := by
  obtain ⟨name, type, default⟩ := p
  cases default <;> simp [rewritten, Stands]

/-- A plain default stands. -/
theorem HasPlainDefault.stands {p : Param} (h : p.HasPlainDefault depth)
    (hle : depth ≤ Json.depthLimit) : p.Stands := by
  intro text htext
  obtain ⟨value, hplain, rfl⟩ := h text htext
  rw [TypeExpr.literalValue_compact hplain hle]

/-- What stands for a text is held as it is. -/
theorem sorted_literalValue (text : String) :
    (TypeExpr.literalValue text).sorted = TypeExpr.literalValue text := by
  rw [TypeExpr.literalValue]
  cases hparse : Json.parse? text with
  | none => rfl
  | some value =>
    obtain ⟨form, -, hvalue⟩ := Option.bind_eq_some_iff.mp hparse
    exact Json.sorted_eq_self (Json.Form.reading hvalue).1

/-- A parameter that is made is read from what is written for it, with its default as it is
written. -/
theorem ofJson_toJson_of_made {p : Param} (h : p.Made depth) (hle : depth ≤ Json.depthLimit) :
    ofJson p.toJson.sorted = .ok p.rewritten := by
  obtain ⟨hplain, htype⟩ := TypeExpr.plain_toJson h.loaded hle
  have hfields : ofFields p.name p.type.toJson p.default? = p.rewritten := by
    rw [ofFields, htype, default?, Option.map_map]
    rfl
  have hheld : ∀ key, findEntry key (Json.held (fields p.name p.type.toJson p.default?)) =
      (findEntry key (fields p.name p.type.toJson p.default?)).map Json.sorted :=
    Json.findEntry_held (by cases p.default? <;> simp [fields])
  rw [← hfields]
  change ofJson (Json.object (fields p.name p.type.toJson p.default?)).sorted = _
  rw [Json.sorted_object]
  refine ofJson_object ?_ ?_ ?_
  · rw [hheld]
    rfl
  · rw [hheld]
    simp [fields, findEntry, Json.sorted_eq_self hplain.ordered]
  · rw [hheld, default?]
    cases p.defaultText with
    | none => rfl
    | some text => simp [fields, findEntry, sorted_literalValue]

/-- A parameter that is made with a plain default is written as an exact value. -/
theorem exact_toJson_of_made {p : Param} (h : p.Made depth) (hdefault : p.HasPlainDefault depth)
    (hle : depth ≤ Json.depthLimit) : p.toJson.Exact (depth + 1) := by
  have htype := (TypeExpr.plain_toJson h.loaded hle).1.exact
  change (Json.object (fields p.name p.type.toJson p.default?)).Exact (depth + 1)
  rw [Json.exact_object_iff]
  refine ⟨depth, rfl, ?_⟩
  rw [default?]
  cases htext : p.defaultText with
  | none => simpa [fields, Json.Exact] using htype
  | some text =>
    obtain ⟨value, hplain, rfl⟩ := hdefault text htext
    simpa [fields, Json.Exact, TypeExpr.literalValue_compact hplain hle] using ⟨htype, hplain.exact⟩

end Param

namespace Methods

/-- A method whose parameters are made and whose return type, if it has one, was read from a plain
value. -/
structure MadeEntry (depth : Nat) (entry : MethodEntry) : Prop where
  params : ∀ p ∈ entry.1.params, p.Made depth
  returns : ∀ type ∈ entry.2, Json.Loaded depth TypeExpr.ofJson type

/-- The methods after return types have been set one after another, from none. -/
def build (set : List MethodEntry) : Methods :=
  set.foldl (fun m entry => m.insert entry.1 entry.2) empty

/-- The method with its defaults as they are written, and without a return type of null. -/
def rewrittenEntry (entry : MethodEntry) : MethodEntry :=
  (⟨entry.1.name, entry.1.params.map Param.rewritten⟩, entry.2.filter (· ≠ .literal "null"))

/-- What is listed after a return type has been set was listed before or is set. -/
theorem mem_put {key : Signature} {returns : Option TypeExpr} {entries : List MethodEntry}
    {entry : MethodEntry} (h : entry ∈ (put key returns entries).2) :
    entry ∈ entries ∨ entry = (key, returns) := by
  induction entries with
  | nil => exact .inr (List.mem_singleton.mp h)
  | cons first rest ih =>
    rw [put] at h
    split at h
    · next hsame =>
      rcases List.mem_cons.mp h with rfl | hrest
      · exact .inr (by rw [hsame])
      · exact .inl (List.mem_cons_of_mem _ hrest)
    · rcases List.mem_cons.mp h with rfl | hrest
      · exact .inl (List.mem_cons_self ..)
      · exact (ih hrest).imp_left (List.mem_cons_of_mem _)

/-- What is listed has been set. -/
theorem mem_of_mem_build {set : List MethodEntry} {entry : MethodEntry}
    (h : entry ∈ (build set).entries) : entry ∈ set := by
  induction set using List.reverseRecOn with
  | nil => cases h
  | append_singleton before last ih =>
    rw [build, List.foldl_append] at h
    rcases mem_put h with hbefore | rfl
    · exact List.mem_append_left _ (ih hbefore)
    · exact List.mem_append_right _ (List.mem_singleton.mpr rfl)

/-- Only null is read as the type of null. -/
theorem ofJson_eq_null_iff {value : Json} (h : value.Plain depth) :
    TypeExpr.ofJson value = .literal "null" ↔ value = .null := by
  have hnull : Json.null.Plain 0 := ⟨trivial, trivial⟩
  constructor
  · exact TypeExpr.ofJson_inj h hnull
  · rintro rfl
    rfl

/-- A return type from a plain value is read from what is written for it, unless it is that of
null. -/
theorem returnsOfJson_toJson {type : TypeExpr} (h : Json.Loaded depth TypeExpr.ofJson type)
    (hle : depth ≤ Json.depthLimit) :
    returnsOfJson type.toJson.sorted = (some type).filter (· ≠ .literal "null") := by
  obtain ⟨value, hplain, rfl⟩ := h
  rw [TypeExpr.toJson_ofJson hplain hle, Json.sorted_eq_self hplain.ordered, Option.filter_some]
  by_cases hvalue : value = .null
  · rw [if_neg (by simpa using (ofJson_eq_null_iff hplain).mpr hvalue), hvalue, returnsOfJson]
  · rw [if_pos (by simpa using mt (ofJson_eq_null_iff hplain).mp hvalue)]
    exact returnsOfJson_eq_some_iff.mpr ⟨hvalue, rfl⟩

/-- A method that is made is read from what is written for it, as it is written. -/
theorem entryOfJson_entryToJson_of_made {entry : MethodEntry} (h : MadeEntry depth entry)
    (hle : depth ≤ Json.depthLimit) :
    entryOfJson (entryToJson entry).sorted = .ok (rewrittenEntry entry) := by
  have hparams : ((entry.1.params.map Param.toJson).map Json.sorted).mapM Param.ofJson =
      .ok (entry.1.params.map Param.rewritten) := by
    rw [List.map_map]
    exact mapM_map_eq_ok_map fun p hp => Param.ofJson_toJson_of_made (h.params p hp) hle
  have hkeys : ((entryFields entry).map Prod.fst).Nodup := by
    rw [entryFields]
    cases entry.2 <;> simp
  have hheld := Json.findEntry_held hkeys
  change entryOfJson (Json.object (entryFields entry)).sorted = _
  rw [Json.sorted_object]
  refine entryOfJson_object (hheld "name") (hheld "params") ?_ ?_
  · rw [Json.sorted, Json.sortedItems_eq_map]
    exact hparams
  · rw [hheld]
    cases hreturns : entry.2 with
    | none => simp [entryFields, findEntry, hreturns]
    | some type =>
      simpa [entryFields, findEntry, hreturns]
        using returnsOfJson_toJson (h.returns type hreturns) hle

/-- What is written for methods that are made is read as the list of them as they are written. -/
theorem ofJson_toJson_of_made {m : Methods} (h : ∀ entry ∈ m.entries, MadeEntry depth entry)
    (hle : depth ≤ Json.depthLimit) :
    ofJson m.toJson.sorted = (ofEntries (m.entries.map rewrittenEntry)).mapError .duplicate := by
  have hentries : ((m.entries.map entryToJson).map Json.sorted).mapM entryOfJson =
      .ok (m.entries.map rewrittenEntry) := by
    rw [List.map_map]
    exact mapM_map_eq_ok_map fun entry hentry =>
      entryOfJson_entryToJson_of_made (h entry hentry) hle
  rw [toJson, Json.sorted, Json.sortedItems_eq_map]
  change (((m.entries.map entryToJson).map Json.sorted).mapM entryOfJson >>= fun entries =>
    (ofEntries entries).mapError .duplicate) = _
  rw [hentries]
  rfl

/-- Methods that are made with plain defaults are written as an exact value. -/
theorem exact_toJson_of_made {m : Methods} (h : ∀ entry ∈ m.entries, MadeEntry depth entry)
    (hdefaults : ∀ entry ∈ m.entries, ∀ p ∈ entry.1.params, p.HasPlainDefault depth)
    (hle : depth ≤ Json.depthLimit) : m.toJson.Exact (depth + 4) := by
  rw [toJson, Json.exact_array_iff]
  refine ⟨depth + 3, rfl, fun item hitem => ?_⟩
  obtain ⟨entry, hentry, rfl⟩ := List.mem_map.mp hitem
  have hparams : (Json.array (entry.1.params.map Param.toJson)).Exact (depth + 2) := by
    rw [Json.exact_array_iff]
    refine ⟨depth + 1, rfl, fun item hitem => ?_⟩
    obtain ⟨p, hp, rfl⟩ := List.mem_map.mp hitem
    exact Param.exact_toJson_of_made ((h entry hentry).params p hp)
      (hdefaults entry hentry p hp) hle
  change (Json.object (entryFields entry)).Exact (depth + 3)
  rw [Json.exact_object_iff]
  refine ⟨depth + 2, rfl, ?_⟩
  cases hreturns : entry.2 with
  | none => simpa [entryFields, hreturns, Json.Exact] using hparams
  | some type =>
    have htype := (TypeExpr.plain_toJson ((h entry hentry).returns type hreturns) hle).1.exact
    simpa [entryFields, hreturns, Json.Exact] using ⟨hparams, htype.mono (Nat.le_add_right depth 2)⟩

/-- A method stays as it is exactly if its return type is not that of null and its defaults
stand. -/
theorem rewrittenEntry_eq_self_iff (entry : MethodEntry) :
    rewrittenEntry entry = entry ↔
      entry.2 ≠ some (.literal "null") ∧ ∀ p ∈ entry.1.params, p.Stands := by
  obtain ⟨⟨name, params⟩, returns⟩ := entry
  have hparams : params.map Param.rewritten = params ↔ ∀ p ∈ params, p.Stands := by
    rw [map_eq_self_iff]
    simp only [Param.rewritten_eq_self_iff]
  have hreturns : returns.filter (· ≠ .literal "null") = returns ↔
      returns ≠ some (.literal "null") := by
    cases returns <;> simp [Option.filter]
  rw [rewrittenEntry, Prod.mk.injEq, Signature.mk.injEq, hparams, hreturns]
  tauto

/-- The methods without the return types of null. -/
def withoutNullReturns (m : Methods) : Methods :=
  m.retain fun _ returns => some (returns.filter (· ≠ .literal "null"))

/-- What is written for methods is read as these exactly if no return type is that of null and all
defaults stand. -/
theorem ofJson_toJson_eq_self_iff {m : Methods} (h : ∀ entry ∈ m.entries, MadeEntry depth entry)
    (hle : depth ≤ Json.depthLimit) :
    ofJson m.toJson.sorted = .ok m ↔
      ∀ entry ∈ m.entries, entry.2 ≠ some (.literal "null") ∧ ∀ p ∈ entry.1.params, p.Stands := by
  rw [ofJson_toJson_of_made h hle, mapError_eq_ok_iff, ofEntries_eq_ok_iff,
    eq_comm, map_eq_self_iff]
  simp only [rewrittenEntry_eq_self_iff]

/-- What is written for methods whose defaults stand is read as these without the return types of
null. -/
theorem ofJson_toJson_of_stands {m : Methods} (h : ∀ entry ∈ m.entries, MadeEntry depth entry)
    (hstands : ∀ entry ∈ m.entries, ∀ p ∈ entry.1.params, p.Stands)
    (hle : depth ≤ Json.depthLimit) : ofJson m.toJson.sorted = .ok m.withoutNullReturns := by
  rw [ofJson_toJson_of_made h hle, mapError_eq_ok_iff, ofEntries_eq_ok_iff]
  change retainEntries (fun _ returns => some (returns.filter (· ≠ .literal "null"))) m.entries = _
  rw [retainEntries, ← List.filterMap_eq_map]
  refine List.filterMap_congr fun entry hentry => ?_
  have hparams := (map_eq_self_iff Param.rewritten _).mpr fun p hp =>
    (Param.rewritten_eq_self_iff p).mpr (hstands entry hentry p hp)
  rw [Function.comp_apply, rewrittenEntry, hparams]
  rfl

/-- Saving and loading a built method list. Methods are built from parameters and return types that
are made of plain values which nest at most 100 deep. What is written for them is read as the same
methods exactly if no return type is that of null and every default is the compact text of what it
stands for. If all defaults are plain values of this depth too, the written text is read, and the
return types of null are all that is lost. -/
theorem saved_of_built (set : List MethodEntry) (h : ∀ entry ∈ set, MadeEntry 100 entry) :
    (ofJson (build set).toJson.sorted = .ok (build set) ↔
      ∀ entry ∈ (build set).entries, entry.2 ≠ some (.literal "null") ∧
        ∀ p ∈ entry.1.params, p.Stands) ∧
    ((∀ entry ∈ (build set).entries, ∀ p ∈ entry.1.params, p.HasPlainDefault 100) →
      Json.parse? (build set).toJson.compact = some (build set).toJson.sorted ∧
      ofJson (build set).toJson.sorted = .ok (build set).withoutNullReturns) := by
  have hmade : ∀ entry ∈ (build set).entries, MadeEntry 100 entry := fun entry hentry =>
    h entry (mem_of_mem_build hentry)
  have hle : 100 ≤ Json.depthLimit := by decide
  refine ⟨ofJson_toJson_eq_self_iff hmade hle, fun hdefaults => ⟨?_, ?_⟩⟩
  · exact Json.parse?_compact ((exact_toJson_of_made hmade hdefaults hle).mono (by decide))
  · exact ofJson_toJson_of_stands hmade
      (fun entry hentry p hp => (hdefaults entry hentry p hp).stands hle) hle

/-- A method with a return type of null is loaded without one. -/
theorem not_saved_of_built : ¬ ∀ set : List MethodEntry, (∀ entry ∈ set, MadeEntry 100 entry) →
    (∀ entry ∈ set, ∀ p ∈ entry.1.params, p.HasPlainDefault 100) →
    ofJson (build set).toJson.sorted = .ok (build set) := by
  intro h
  have hset := h [(⟨"f", []⟩, some (.ofJson .null))] ?_ ?_
  · exact absurd hset (by decide +kernel)
  · intro entry hentry
    obtain rfl := List.mem_singleton.mp hentry
    exact ⟨nofun, fun type htype => ⟨.null, ⟨trivial, trivial⟩, Option.some.inj htype⟩⟩
  · intro entry hentry
    obtain rfl := List.mem_singleton.mp hentry
    exact nofun

/-- Two methods, one with a default of null and a null in its type, and one whose return type is set
twice. -/
def nullMethods : List MethodEntry := [
  (⟨"f", [.withDefault ⟨"x", .ofJson (.array [.string "int32", .null]), none⟩ .null]⟩, none),
  (⟨"g", []⟩, some (.ofJson .null)),
  (⟨"g", []⟩, some (.ofJson (.integer 3)))]

/-- Both methods come back. -/
theorem saved_of_built_null : (∀ entry ∈ nullMethods, MadeEntry 100 entry) ∧
    (build nullMethods).size = 2 ∧
    ofJson (build nullMethods).toJson.sorted = .ok (build nullMethods) ∧
    Json.parse? (build nullMethods).toJson.compact = some (build nullMethods).toJson.sorted := by
  have hnull : Json.null.Plain 100 := ⟨trivial, trivial⟩
  have hnumber : (Json.integer 3).Plain 100 := ⟨(by decide : Json.InWord 3), trivial⟩
  have hlist : (Json.array [.string "int32", .null]).Plain 100 := by
    constructor
    · simp [Json.Exact, Json.ExactItems]
    · simp [Json.Ordered, Json.OrderedItems]
  have hmade : ∀ entry ∈ nullMethods, MadeEntry 100 entry := by
    intro entry hentry
    simp only [nullMethods, List.mem_cons, List.not_mem_nil, or_false] at hentry
    rcases hentry with rfl | rfl | rfl
    · refine ⟨fun p hp => ?_, fun type htype => absurd htype (Option.not_mem_none type)⟩
      obtain rfl := List.mem_singleton.mp hp
      exact .withDefault .null (.new hlist)
    · exact ⟨fun p hp => absurd hp List.not_mem_nil,
        fun type htype => ⟨.null, hnull, Option.some.inj htype⟩⟩
    · exact ⟨fun p hp => absurd hp List.not_mem_nil,
        fun type htype => ⟨.integer 3, hnumber, Option.some.inj htype⟩⟩
  obtain ⟨hback, htext⟩ := saved_of_built nullMethods hmade
  have hdefaults : ∀ entry ∈ (build nullMethods).entries, ∀ p ∈ entry.1.params,
      p.HasPlainDefault 100 := by
    intro entry hentry p hp text htext
    have hnulls : ∀ entry ∈ nullMethods, ∀ p ∈ entry.1.params, p.defaultText = some "null" := by
      decide +kernel
    obtain rfl := Option.some.inj ((hnulls entry (mem_of_mem_build hentry) p hp).symm.trans htext)
    exact ⟨.null, hnull, rfl⟩
  have hreturns : ∀ entry ∈ (build nullMethods).entries, entry.2 ≠ some (.literal "null") := by
    decide +kernel
  refine ⟨hmade, by decide +kernel,
    hback.mpr fun entry hentry => ⟨hreturns entry hentry, fun p hp => ?_⟩, (htext hdefaults).1⟩
  exact (hdefaults entry hentry p hp).stands (by decide)

end Methods

end TypeSieve
