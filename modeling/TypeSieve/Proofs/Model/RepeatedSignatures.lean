import TypeSieve.Proofs.Model.WellFormed

/-!
# Repeated signatures

Signatures are compared after types and defaults have become texts. These texts tell plain values
apart, however deep they nest, so two entries have the same signature exactly if they are given
equal names and, parameter by parameter, equal names, types and defaults. A list of well-formed
entries is refused exactly if two of them repeat a signature in this sense, for the first one that
repeats an earlier one.
-/

namespace TypeSieve

namespace Json

/-- The parameters that an entry is given; where they are absent there are none. -/
def givenParams (value : Json) : List Json := ((value.field? "params" 1).map parts).getD []

/-- Two parameters are given equal names, types and defaults. A default of null is not the same as
none. -/
structure SameParam (a b : Json) : Prop where
  name : a.field? "name" 0 = b.field? "name" 0
  type : a.field? "type" 1 = b.field? "type" 1
  default : a.field? "default" 2 = b.field? "default" 2

/-- Two entries are given equal names and, one by one, the same parameters. -/
structure SameSignature (a b : Json) : Prop where
  name : a.field? "name" 0 = b.field? "name" 0
  params : List.Forall₂ SameParam a.givenParams b.givenParams

variable {a b : Json} {depth more : Nat}

/-- Names that are strings are equal exactly if their texts are. -/
theorem fieldText_eq_iff {key : String} {position : Nat}
    (ha : ∃ text, a.field? key position = some (.string text))
    (hb : ∃ text, b.field? key position = some (.string text)) :
    a.fieldText key position = b.fieldText key position ↔
      a.field? key position = b.field? key position := by
  obtain ⟨text, ha⟩ := ha
  obtain ⟨other, hb⟩ := hb
  rw [fieldText_eq ha, fieldText_eq hb, ha, hb, Option.some.injEq, string.injEq]

/-- Plain values that may be absent are equal exactly if their compact texts are. -/
theorem map_compact_eq_iff {x y : Option Json} (hx : ∀ value ∈ x, value.Plain depth)
    (hy : ∀ value ∈ y, value.Plain more) : x.map compact = y.map compact ↔ x = y := by
  cases x with
  | none => cases y <;> simp
  | some v =>
    cases y with
    | none => simp
    | some w =>
      rw [Option.map_some, Option.map_some, Option.some.injEq, Option.some.injEq]
      exact ⟨(hx v rfl).compact_inj (hy w rfl), congrArg compact⟩

/-- Well-formed plain parameters stand for the same one exactly if they are given the same. -/
theorem param_eq_iff (ha : a.WellFormedParam) (hb : b.WellFormedParam) (hplain : a.Plain depth)
    (hplain' : b.Plain more) : a.param = b.param ↔ a.SameParam b := by
  obtain ⟨type, htype⟩ := ha.type
  obtain ⟨other, hother⟩ := hb.type
  have htypes : TypeExpr.ofJson type = TypeExpr.ofJson other ↔ type = other :=
    ⟨TypeExpr.ofJson_inj (hplain.field htype) (hplain'.field hother), congrArg TypeExpr.ofJson⟩
  have hfields : a.param = b.param ↔ a.fieldText "name" 0 = b.fieldText "name" 0 ∧
      TypeExpr.ofJson type = TypeExpr.ofJson other ∧
      (a.field? "default" 2).map compact = (b.field? "default" 2).map compact := by
    rw [param, param, htype, hother, Param.ofFields, Param.ofFields, Param.mk.injEq]
    rfl
  rw [hfields, fieldText_eq_iff ha.name hb.name, htypes,
    map_compact_eq_iff (fun _ => hplain.field) fun _ => hplain'.field]
  constructor
  · rintro ⟨hname, rfl, hdefault⟩
    exact ⟨hname, htype.trans hother.symm, hdefault⟩
  · rintro ⟨hname, hsame, hdefault⟩
    rw [htype, hother, Option.some.injEq] at hsame
    exact ⟨hname, hsame, hdefault⟩

/-- The parameters of a well-formed plain entry are well formed and plain. -/
theorem WellFormedEntry.params_of_plain (h : a.WellFormedEntry) (hplain : a.Plain depth) :
    ∀ item ∈ a.givenParams, item.WellFormedParam ∧ item.Plain depth := by
  intro item hitem
  rw [givenParams] at hitem
  cases hlist : a.field? "params" 1 with
  | none =>
    rw [hlist] at hitem
    cases hitem
  | some list =>
    rw [hlist] at hitem
    have hparts : item ∈ list.parts := hitem
    have hwell := h.params list hlist
    cases list with
    | array items =>
      exact ⟨hwell item hparts, (hplain.field hlist).part hparts⟩
    | null | bool _ | integer _ | double _ | string _ | object _ => exact hwell.elim

/-- Well-formed plain entries stand for the same signature exactly if they are given the same. -/
theorem signature_eq_iff (ha : a.WellFormedEntry) (hb : b.WellFormedEntry) (hplain : a.Plain depth)
    (hplain' : b.Plain more) : a.signature = b.signature ↔ a.SameSignature b := by
  have hparams : a.givenParams.map param = b.givenParams.map param ↔
      List.Forall₂ SameParam a.givenParams b.givenParams := by
    refine map_eq_map_iff_forall₂ fun x hx y hy => ?_
    obtain ⟨hx, hxplain⟩ := ha.params_of_plain hplain x hx
    obtain ⟨hy, hyplain⟩ := hb.params_of_plain hplain' y hy
    exact param_eq_iff hx hy hxplain hyplain
  have hfields : a.signature = b.signature ↔ a.fieldText "name" 0 = b.fieldText "name" 0 ∧
      a.givenParams.map param = b.givenParams.map param := Signature.mk.injEq .. ▸ Iff.rfl
  rw [hfields, fieldText_eq_iff ha.name hb.name, hparams]
  exact ⟨fun h => ⟨h.1, h.2⟩, fun h => ⟨h.name, h.params⟩⟩

end Json

section Repeats

variable {α β : Type}

/-- An item that repeats an earlier one, with no such item before it. -/
def FirstRepeat (Same : α → α → Prop) (items : List α) (item : α) : Prop :=
  ∃ before after, items = before ++ item :: after ∧ (∃ earlier ∈ before, Same earlier item) ∧
    before.Pairwise fun earlier later => ¬ Same earlier later

/-- Two items at different places are the same. -/
def Repeats (Same : α → α → Prop) (items : List α) : Prop :=
  ∃ (i j : Nat) (a b : α), i ≠ j ∧ items[i]? = some a ∧ items[j]? = some b ∧ Same a b

variable {f : α → β} {Same : α → α → Prop} {items : List α}
  (h : ∀ a ∈ items, ∀ b ∈ items, f a = f b ↔ Same a b)
include h

/-- What items are taken to is first repeated where the items are. -/
theorem firstRepeat_map_iff (y : β) :
    FirstRepeat Eq (items.map f) y ↔ ∃ item, FirstRepeat Same items item ∧ f item = y := by
  constructor
  · rintro ⟨before, after, hsplit, ⟨earlier, hearlier, rfl⟩, hfirst⟩
    obtain ⟨front, rest, rfl, rfl, hrest⟩ := List.map_eq_append_iff.mp hsplit
    obtain ⟨item, back, rfl, hitem, -⟩ := List.map_eq_cons_iff.mp hrest
    obtain ⟨old, hold, rfl⟩ := List.mem_map.mp hearlier
    have hmem : ∀ a ∈ front, a ∈ front ++ item :: back := fun a ha => List.mem_append_left _ ha
    refine ⟨item,
      ⟨front, back, rfl, ⟨old, hold, (h old (hmem old hold) item (by simp)).mp hitem.symm⟩, ?_⟩,
      hitem⟩
    refine (List.pairwise_map.mp hfirst).imp_of_mem fun ha hb hne hsame => hne ?_
    exact (h _ (hmem _ ha) _ (hmem _ hb)).mpr hsame
  · rintro ⟨item, ⟨front, back, rfl, ⟨old, hold, hsame⟩, hfirst⟩, rfl⟩
    have hmem : ∀ a ∈ front, a ∈ front ++ item :: back := fun a ha => List.mem_append_left _ ha
    refine ⟨front.map f, back.map f, by rw [List.map_append, List.map_cons], ?_, ?_⟩
    · exact ⟨f old, List.mem_map.mpr ⟨old, hold, rfl⟩,
        (h old (hmem old hold) item (by simp)).mpr hsame⟩
    · refine List.pairwise_map.mpr (hfirst.imp_of_mem fun ha hb hne hequal => hne ?_)
      exact (h _ (hmem _ ha) _ (hmem _ hb)).mp hequal

/-- What items are taken to is distinct unless two items are the same. -/
theorem not_nodup_map_iff : ¬ (items.map f).Nodup ↔ Repeats Same items := by
  rw [Repeats, List.nodup_iff_getElem?_ne_getElem?]
  push Not
  constructor
  · rintro ⟨i, j, hij, hj, hequal⟩
    rw [List.length_map] at hj
    rw [List.getElem?_map, List.getElem?_map, List.getElem?_eq_getElem hj,
      List.getElem?_eq_getElem (hij.trans hj)] at hequal
    refine ⟨i, j, _, _, hij.ne, List.getElem?_eq_getElem (hij.trans hj),
      List.getElem?_eq_getElem hj, ?_⟩
    exact (h _ (List.getElem_mem _) _ (List.getElem_mem _)).mp (Option.some.inj hequal)
  · rintro ⟨i, j, a, b, hne, ha, hb, hsame⟩
    have hequal : (items.map f)[i]? = (items.map f)[j]? := by
      rw [List.getElem?_map, List.getElem?_map, ha, hb, Option.map_some, Option.map_some,
        (h a (List.mem_of_getElem? ha) b (List.mem_of_getElem? hb)).mpr hsame]
    have hlength : ∀ {k : Nat} {x : α}, items[k]? = some x → k < (items.map f).length := by
      intro k x hx
      rw [List.length_map]
      exact (List.getElem?_eq_some_iff.mp hx).1
    rcases Nat.lt_or_gt_of_ne hne with hij | hji
    · exact ⟨i, j, hij, hlength hb, hequal⟩
    · exact ⟨j, i, hji, hlength ha, hequal.symm⟩

end Repeats

namespace Methods

/-- Adding entries is refused exactly for the first signature that is among those before it. -/
theorem extend_eq_error_iff (m : Methods) (entries : List MethodEntry) (key : Signature) :
    m.extend entries = .error key ↔ ∃ before after, entries.map Prod.fst = before ++ key :: after ∧
      key ∈ m.keys ++ before ∧ (m.keys ++ before).Nodup := by
  induction entries generalizing m with
  | nil => simp [extend]
  | cons entry rest ih =>
    rw [extend, List.map_cons]
    split
    · next hpresent =>
      constructor
      · intro h
        obtain rfl := Except.error.inj h
        refine ⟨[], rest.map Prod.fst, rfl, List.mem_append_left _ hpresent, ?_⟩
        rw [List.append_nil]
        exact m.distinct
      · rintro ⟨before, after, hsplit, -, hdistinct⟩
        cases before with
        | nil => rw [(List.cons.inj hsplit).1]
        | cons first before =>
          -- The signature would stand twice before the one that is refused.
          rw [← (List.cons.inj hsplit).1] at hdistinct
          exact absurd hpresent ((List.nodup_middle.mp hdistinct).notMem ∘ List.mem_append_left _)
    · next hfresh =>
      have hkeys : ∀ before, (m.push entry.1 entry.2 hfresh).keys ++ before =
          m.keys ++ entry.1 :: before := by
        intro before
        simp [push, keys]
      simp only [ih, hkeys]
      constructor
      · rintro ⟨before, after, hsplit, hfirst⟩
        exact ⟨entry.1 :: before, after, congrArg (entry.1 :: ·) hsplit, hfirst⟩
      · rintro ⟨before, after, hsplit, hrepeat, hdistinct⟩
        cases before with
        | nil =>
          rw [List.append_nil, ← (List.cons.inj hsplit).1] at hrepeat
          exact absurd hrepeat hfresh
        | cons first before =>
          obtain ⟨rfl, hrest⟩ := List.cons.inj hsplit
          exact ⟨before, after, hrest, hrepeat, hdistinct⟩

/-- A list of entries is refused exactly for the first signature that repeats an earlier one. -/
theorem ofEntries_eq_error_iff (entries : List MethodEntry) (key : Signature) :
    ofEntries entries = .error key ↔ FirstRepeat Eq (entries.map Prod.fst) key := by
  rw [ofEntries, extend_eq_error_iff]
  simp only [FirstRepeat, exists_eq_right]
  rfl

/-- A list of well-formed entries is refused exactly for the first signature that repeats an earlier
one. -/
theorem ofJson_eq_error_iff {items : List Json} (hentries : ∀ item ∈ items, item.WellFormedEntry)
    (error : ModelError) : ofJson (.array items) = .error error ↔
      ∃ key, FirstRepeat Eq (items.map Json.signature) key ∧ error = .duplicate key := by
  have hread : items.mapM entryOfJson = .ok (items.map Json.entry) :=
    (mapM_eq_ok_iff_forall fun item _ => entryOfJson_eq_ok_iff item).mpr ⟨hentries, rfl⟩
  have hsteps : ofJson (.array items) = (ofEntries (items.map Json.entry)).mapError .duplicate := by
    change (items.mapM entryOfJson >>= fun entries => (ofEntries entries).mapError .duplicate) = _
    rw [hread]
    rfl
  have hkeys : (items.map Json.entry).map Prod.fst = items.map Json.signature := List.map_map ..
  rw [hsteps, ← hkeys]
  simp only [← ofEntries_eq_error_iff]
  cases ofEntries (items.map Json.entry) <;> simp [Except.mapError, eq_comm]

/-- Which lists of entries are refused. Well-formed plain entries are refused exactly if two at
different places have equal names and parameters, as they are given. The error shows the signature
of the first entry that repeats an earlier one. Otherwise each entry is read, and the methods are
these in the order of the list. -/
theorem refuses_repeated_signatures (items : List Json)
    (hentries : ∀ item ∈ items, item.WellFormedEntry)
    (hplain : ∀ item ∈ items, ∃ depth, item.Plain depth) :
    ((∃ error, ofJson (.array items) = .error error) ↔ Repeats Json.SameSignature items) ∧
    (∀ error, ofJson (.array items) = .error error ↔
      ∃ item, FirstRepeat Json.SameSignature items item ∧ error = .duplicate item.signature ∧
        error.message = "duplicate method signature " ++ item.signature.render) ∧
    (¬ Repeats Json.SameSignature items → ∃ m, ofJson (.array items) = .ok m ∧
      List.Forall₂ (fun item entry => entryOfJson item = .ok entry) items m.entries) := by
  have hsame : ∀ a ∈ items, ∀ b ∈ items, a.signature = b.signature ↔ a.SameSignature b := by
    intro a ha b hb
    obtain ⟨depth, haplain⟩ := hplain a ha
    obtain ⟨more, hbplain⟩ := hplain b hb
    exact Json.signature_eq_iff (hentries a ha) (hentries b hb) haplain hbplain
  refine ⟨?_, fun error => ?_, fun hdistinct => ?_⟩
  · rw [← not_nodup_map_iff hsame, exists_error_iff, exists_ofJson_eq_ok_iff]
    exact not_congr (and_iff_right hentries)
  · rw [ofJson_eq_error_iff hentries]
    simp only [firstRepeat_map_iff hsame]
    constructor
    · rintro ⟨_, ⟨item, hfirst, rfl⟩, rfl⟩
      exact ⟨item, hfirst, rfl, rfl⟩
    · rintro ⟨item, hfirst, rfl, -⟩
      exact ⟨_, ⟨item, hfirst, rfl⟩, rfl⟩
  · rw [← not_nodup_map_iff hsame, not_not] at hdistinct
    obtain ⟨m, hm⟩ := (exists_ofJson_eq_ok_iff (.array items)).mpr ⟨hentries, hdistinct⟩
    refine ⟨m, hm, (mapM_eq_ok_iff ..).mp ?_⟩
    rw [mapM_eq_ok_iff_forall fun item _ => entryOfJson_eq_ok_iff item]
    exact (ofJson_eq_ok_iff ..).mp hm

/-- Entries in both notations. The second and the third differ by a default of null alone. -/
def overloads : List Json := [
  .object [("name", .string "area"), ("returns", .string "float64")],
  .array [.string "scale", .array [.array [.string "by", .string "int32"]]],
  .object [("name", .string "scale"),
    ("params",
      .array [.object [("default", .null), ("name", .string "by"), ("type", .string "int32")]])]]

/-- An entry with the signature of the second one, a note on its parameter and a return type. -/
def repeated : Json :=
  .object [("name", .string "scale"),
    ("params",
      .array [.object [("name", .string "by"), ("note", .integer 3), ("type", .string "int32")]]),
    ("returns", .array [])]

/-- The overloads are read, one method for each. With the repeated entry behind them the list is
refused. -/
theorem refuses_repeated_signatures_overloads :
    ((∀ item ∈ overloads ++ [repeated], item.WellFormedEntry) ∧
      ∀ item ∈ overloads ++ [repeated], ∃ depth, item.Plain depth) ∧
    (¬ Repeats Json.SameSignature overloads ∧ ∃ m, ofJson (.array overloads) = .ok m ∧
      List.Forall₂ (fun item entry => entryOfJson item = .ok entry) overloads m.entries) ∧
    Repeats Json.SameSignature (overloads ++ [repeated]) ∧
    ∃ error, ofJson (.array (overloads ++ [repeated])) = .error error ∧
      error.message = "duplicate method signature scale(by: int32)" := by
  have hwell : ∀ item ∈ overloads ++ [repeated], item.WellFormedEntry := by
    intro item hitem
    simp only [overloads, List.cons_append, List.nil_append, List.mem_cons,
      List.not_mem_nil, or_false] at hitem
    rcases hitem with rfl | rfl | rfl | rfl <;> exact ((entryOfJson_eq_ok_iff _ _).mp rfl).1
  have hplain : ∀ item ∈ overloads ++ [repeated], ∃ depth, item.Plain depth := by
    intro item hitem
    simp only [overloads, List.cons_append, List.nil_append, List.mem_cons,
      List.not_mem_nil, or_false] at hitem
    refine ⟨3, ?_, ?_⟩
    · rcases hitem with rfl | rfl | rfl | rfl <;>
        simp [repeated, Json.Exact, Json.ExactItems, Json.ExactMembers,
          Json.InWord, Json.Numeral.wordMax]
    · rcases hitem with rfl | rfl | rfl | rfl <;>
        simp [repeated, Json.Ordered, Json.OrderedItems, Json.OrderedMembers] <;> decide
  obtain ⟨hrefused, -, -⟩ := refuses_repeated_signatures _ hwell hplain
  obtain ⟨haccepted, -, hread⟩ := refuses_repeated_signatures overloads
    (fun item hitem => hwell item (List.mem_append_left _ hitem))
    fun item hitem => hplain item (List.mem_append_left _ hitem)
  have hoverloads : ¬ Repeats Json.SameSignature overloads := by
    rw [← haccepted]
    rintro ⟨error, h⟩
    cases h
  exact ⟨⟨hwell, hplain⟩, ⟨hoverloads, hread hoverloads⟩, hrefused.mp ⟨_, rfl⟩,
    _, rfl, by decide +kernel⟩

end Methods

end TypeSieve
