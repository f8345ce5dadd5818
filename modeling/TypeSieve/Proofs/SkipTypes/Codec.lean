import TypeSieve.Proofs.SkipTypes.Checked
import TypeSieve.Proofs.SkipTypes.Written
import TypeSieve.Proofs.TypeExpr.RoundTrip
import TypeSieve.Proofs.TypeExpr.Written

/-!
# Which values are configurations

A value is read as a configuration if it is null, a list of patterns, or a mapping to such lists. A
pattern is refused if an empty array occurs in it, in arrays at any depth but not inside of objects.
What was read is written as the value that it was read from, with null for an empty list or mapping.
What is not read fails with the first entry in key order, and in it with the first index, that is no
list or is refused.
-/

namespace TypeSieve

namespace Json

/-- An empty array is the value or occurs in an item of it. What an object holds does not count. -/
inductive HasEmptyArray : Json → Prop
  | whole : HasEmptyArray (.array [])
  | item {items : List Json} {item : Json} (hitem : item ∈ items) (hinside : HasEmptyArray item) :
    HasEmptyArray (.array items)

/-- A list of patterns without empty arrays. -/
def IsPatternList : Json → Prop := IsListOf fun item => ¬ item.HasEmptyArray

/-- A boolean, a number or a string. -/
def IsScalar : Json → Prop
  | .bool _ | .integer _ | .double _ | .string _ => True
  | .null | .array _ | .object _ => False

/-- A value with null for an empty list or mapping. -/
def orNull : Json → Json
  | .array [] | .object [] => .null
  | value => value

/-- An array has an empty array if it is one or one of its items has one. -/
theorem hasEmptyArray_array_iff (items : List Json) :
    (Json.array items).HasEmptyArray ↔ items = [] ∨ ∃ item ∈ items, item.HasEmptyArray := by
  constructor
  · rintro (_ | ⟨hitem, hinside⟩)
    · exact .inl rfl
    · exact .inr ⟨_, hitem, hinside⟩
  · rintro (rfl | ⟨item, hitem, hinside⟩)
    · exact .whole
    · exact .item hitem hinside

end Json

/-- A value is read as a type with an empty tuple exactly if it has an empty array. -/
theorem TypeExpr.hasEmptyTuple_ofJson_iff (value : Json) :
    (ofJson value).hasEmptyTuple = true ↔ value.HasEmptyArray := by
  induction value using Json.ind with
  | null | bool _ | integer _ | double _ | string _ | object _ _ =>
    exact ⟨fun h => (by cases h), fun h => (by cases h)⟩
  | array items ih =>
    rw [ofJson_array, hasEmptyTuple_tuple, Bool.or_eq_true, List.any_eq_true, List.isEmpty_iff,
      List.map_eq_nil_iff, Json.hasEmptyArray_array_iff]
    refine or_congr_right ⟨?_, ?_⟩
    · rintro ⟨_, htype, hempty⟩
      obtain ⟨item, hitem, rfl⟩ := List.mem_map.mp htype
      exact ⟨item, hitem, (ih item hitem).mp hempty⟩
    · rintro ⟨item, hitem, hinside⟩
      exact ⟨ofJson item, List.mem_map_of_mem hitem, (ih item hitem).mpr hinside⟩

namespace SkipTypes

/-- The values that configure unwanted types. -/
inductive Configures : Json → Prop
  | null : Configures .null
  | list {items : List Json} (hlist : (Json.array items).IsPatternList) : Configures (.array items)
  | mapping {members : List (String × Json)} (hlists : ∀ member ∈ members, member.2.IsPatternList) :
    Configures (.object members)

/-- The first item of a list with an empty array stands at an index. -/
structure FirstRefused (items : List Json) (index : Nat) (item : Json) : Prop where
  found : items[index]? = some item
  refused : item.HasEmptyArray
  before : ∀ earlier < index, ∀ other, items[earlier]? = some other → ¬ other.HasEmptyArray

/-- The entry of a class is no list, or an item of the list is refused. -/
inductive EntryFault (name : String) : Json → SkipTypesError → Prop
  | shape {value : Json} (hshape : ∀ items, value ≠ .array items) :
      EntryFault name value (.entryShape name value)
  | pattern {items : List Json} {index : Nat} {item : Json}
    (hfirst : FirstRefused items index item) :
    EntryFault name (.array items) (.emptyTuple (some name) index item)

/-- The value is a scalar, an item of the list is refused, or the entry with the least key that is
no list of patterns is at fault. -/
inductive FirstFault : Json → SkipTypesError → Prop
  | shape {value : Json} (hscalar : value.IsScalar) : FirstFault value (.shape value)
  | list {items : List Json} {index : Nat} {item : Json} (hfirst : FirstRefused items index item) :
    FirstFault (.array items) (.emptyTuple none index item)
  | entry {members : List (String × Json)} {name : String} {value : Json} {error : SkipTypesError}
    (hmember : (name, value) ∈ members)
    (hleast : ∀ member ∈ members, member.1 < name → member.2.IsPatternList)
    (hfault : EntryFault name value error) : FirstFault (.object members) error

/-- The first item that is refused is the first of all, or the first of the rest if the first of all
is not. -/
theorem firstRefused_cons_iff (first : Json) (rest : List Json) (index : Nat) (item : Json) :
    FirstRefused (first :: rest) index item ↔
      (index = 0 ∧ item = first ∧ first.HasEmptyArray) ∨
        ∃ behind, index = behind + 1 ∧ ¬ first.HasEmptyArray ∧ FirstRefused rest behind item := by
  constructor
  · rintro ⟨hfound, hrefused, hbefore⟩
    cases index with
    | zero =>
      obtain rfl := Option.some.inj hfound
      exact .inl ⟨rfl, rfl, hrefused⟩
    | succ behind =>
      have hrest : ∀ earlier < behind, ∀ other, rest[earlier]? = some other →
          ¬ other.HasEmptyArray :=
        fun earlier hearlier => hbefore (earlier + 1) (Nat.succ_lt_succ hearlier)
      exact .inr ⟨behind, rfl, hbefore 0 (Nat.succ_pos _) first rfl, hfound, hrefused, hrest⟩
  · rintro (⟨rfl, rfl, hrefused⟩ | ⟨behind, rfl, hfirst, hfound, hrefused, hbefore⟩)
    · exact ⟨rfl, hrefused, fun earlier hearlier => absurd hearlier (Nat.not_lt_zero _)⟩
    · refine ⟨hfound, hrefused, fun earlier hearlier other hother => ?_⟩
      cases earlier with
      | zero => exact Option.some.inj hother ▸ hfirst
      | succ earlier => exact hbefore earlier (Nat.lt_of_succ_lt_succ hearlier) other hother

/-- A list of patterns is read exactly if none has an empty array, as the types of its items. -/
theorem patternsFrom_eq_ok_iff (className : Option String) (index : Nat) (items : List Json)
    (list : List TypeExpr) :
    patternsFrom className index items = .ok list ↔
      (Json.array items).IsPatternList ∧ list = items.map TypeExpr.ofJson := by
  have hempty (item : Json) : (TypeExpr.ofJson item).hasEmptyTuple = false ↔
      ¬ item.HasEmptyArray := by
    rw [← TypeExpr.hasEmptyTuple_ofJson_iff, Bool.not_eq_true]
  constructor
  · intro h
    induction items generalizing index list with
    | nil => exact ⟨fun item hitem => (nomatch hitem), (Except.ok.inj h).symm⟩
    | cons item rest ih =>
      rw [patternsFrom] at h
      split at h
      · cases h
      · next hitem =>
        obtain ⟨others, hothers, rfl⟩ := map_eq_ok_iff.mp h
        obtain ⟨hrest, rfl⟩ := ih _ _ hothers
        exact ⟨List.forall_mem_cons.mpr ⟨(hempty item).mp (Bool.eq_false_iff.mpr hitem), hrest⟩,
          rfl⟩
  · rintro ⟨hlist, rfl⟩
    exact patternsFrom_eq_ok
      (fun item hitem => (hempty item).mpr (hlist item hitem)) className index

/-- A list of patterns fails with the first one that has an empty array. -/
theorem patternsFrom_eq_error_iff (className : Option String) (index : Nat) (items : List Json)
    (error : SkipTypesError) :
    patternsFrom className index items = .error error ↔
      ∃ behind item, FirstRefused items behind item ∧
        error = .emptyTuple className (index + behind) item := by
  -- An item stands as far behind the index as it stands in the rest, and one further.
  induction items generalizing index with
  | nil =>
    constructor
    · rintro ⟨⟩
    · rintro ⟨behind, item, hfirst, -⟩
      cases hfirst.found
  | cons first rest ih =>
    simp only [firstRefused_cons_iff]
    rw [patternsFrom]
    by_cases hempty : first.HasEmptyArray
    · rw [if_pos ((TypeExpr.hasEmptyTuple_ofJson_iff _).mpr hempty)]
      constructor
      · rintro ⟨⟩
        exact ⟨0, first, .inl ⟨rfl, rfl, hempty⟩, rfl⟩
      · rintro ⟨behind, item, ⟨rfl, rfl, -⟩ | ⟨_, -, hnot, -⟩, rfl⟩
        · rfl
        · exact absurd hempty hnot
    · rw [if_neg (mt (TypeExpr.hasEmptyTuple_ofJson_iff _).mp hempty), map_eq_error_iff, ih]
      constructor
      · rintro ⟨behind, item, hfirst, rfl⟩
        exact ⟨behind + 1, item, .inr ⟨behind, rfl, hempty, hfirst⟩,
          by rw [Nat.succ_add_eq_add_succ]⟩
      · rintro ⟨_, item, ⟨-, -, hfirst⟩ | ⟨behind, rfl, -, hfirst⟩, rfl⟩
        · exact absurd hfirst hempty
        · exact ⟨behind, item, hfirst, by rw [Nat.succ_add_eq_add_succ]⟩

/-- Read the patterns of an entry. -/
def entryOf (member : String × Json) : Except SkipTypesError (List TypeExpr) :=
  match member.2 with
  | .array items => patternsFrom (some member.1) 0 items
  | value => .error (.entryShape member.1 value)

/-- The lists of the classes are read entry by entry. -/
theorem listsOf_eq_mapM (members : List (String × Json)) :
    listsOf members = members.mapM fun member => (entryOf member).map fun list =>
      (member.1, list) := by
  induction members with
  | nil => rfl
  | cons member rest ih =>
    obtain ⟨name, value⟩ := member
    rw [List.mapM_cons, ← ih]
    cases value with
    | array items =>
      rw [listsOf]
      change _ = (patternsFrom (some name) 0 items).map _ >>= _
      cases patternsFrom (some name) 0 items <;> rfl
    | null | bool _ | integer _ | double _ | string _ | object _ => rfl

/-- An entry is read exactly if it is a list of patterns, as the types of its items. -/
theorem entryOf_eq_ok_iff (member : String × Json) (list : List TypeExpr) :
    entryOf member = .ok list ↔
      member.2.IsPatternList ∧ list = member.2.parts.map TypeExpr.ofJson := by
  obtain ⟨name, value⟩ := member
  cases value with
  | array items => exact patternsFrom_eq_ok_iff (some name) 0 items list
  | null | bool _ | integer _ | double _ | string _ | object _ =>
    simp [entryOf, Json.IsPatternList, Json.IsListOf]

/-- An entry fails exactly with what is wrong with it. -/
theorem entryOf_eq_error_iff (member : String × Json) (error : SkipTypesError) :
    entryOf member = .error error ↔ EntryFault member.1 member.2 error := by
  obtain ⟨name, value⟩ := member
  cases value with
  | array items =>
    change patternsFrom (some name) 0 items = .error error ↔ _
    rw [patternsFrom_eq_error_iff]
    constructor
    · rintro ⟨behind, item, hfirst, rfl⟩
      rw [Nat.zero_add]
      exact .pattern hfirst
    · rintro (hshape | hfirst)
      · exact absurd rfl (hshape items)
      · exact ⟨_, _, hfirst, by rw [Nat.zero_add]⟩
  | null | bool _ | integer _ | double _ | string _ | object _ =>
    constructor
    · rintro ⟨⟩
      exact .shape nofun
    · rintro ⟨⟩
      rfl

/-- The lists of the classes are read exactly if each entry is a list of patterns. -/
theorem listsOf_eq_ok_iff (members : List (String × Json)) (lists : List (String × List TypeExpr)) :
    listsOf members = .ok lists ↔ (∀ member ∈ members, member.2.IsPatternList) ∧
      lists = members.map fun member => (member.1, member.2.parts.map TypeExpr.ofJson) := by
  rw [listsOf_eq_mapM]
  refine mapM_eq_ok_iff_forall fun member _ entry => ?_
  rw [map_eq_ok_iff]
  simp only [entryOf_eq_ok_iff]
  constructor
  · rintro ⟨list, ⟨hlist, rfl⟩, rfl⟩
    exact ⟨hlist, rfl⟩
  · rintro ⟨hlist, rfl⟩
    exact ⟨_, ⟨hlist, rfl⟩, rfl⟩

/-- The lists of the classes fail exactly with what is wrong with the entry with the least key that
is at fault. -/
theorem listsOf_eq_error_iff {members : List (String × Json)} (hascending : Ascending members)
    (error : SkipTypesError) :
    listsOf members = .error error ↔ FirstFault (.object members) error := by
  have hread (member : String × Json) :
      (∃ entry, (entryOf member).map (fun list => (member.1, list)) = .ok entry) ↔
        member.2.IsPatternList := by
    simp [map_eq_ok_iff, entryOf_eq_ok_iff]
  -- The entries that are read in front of the one at fault are those with smaller keys.
  simp only [listsOf_eq_mapM, mapM_eq_error_iff, hread, map_eq_error_iff, entryOf_eq_error_iff]
  constructor
  · rintro ⟨before, entry, after, rfl, hbefore, hfault⟩
    refine .entry (List.mem_append_right _ (List.mem_cons_self ..))
      (fun member hmember hlt => ?_) hfault
    exact hbefore member ((hascending.mem_before_iff member).mpr ⟨hmember, hlt⟩)
  · rintro (⟨⟨⟩⟩ | _ | ⟨hmember, hleast, hfault⟩)
    obtain ⟨before, after, rfl⟩ := List.append_of_mem hmember
    refine ⟨before, _, after, rfl, fun member hbefore => ?_, hfault⟩
    obtain ⟨hmem, hlt⟩ := (hascending.mem_before_iff member).mp hbefore
    exact hleast member hmem hlt

/-- A value is read exactly if it is null, a list of patterns or a mapping to such lists. -/
theorem exists_ofJson_eq_ok_iff (value : Json) :
    (∃ skips, ofJson value = .ok skips) ↔ Configures value := by
  cases value with
  | null => exact ⟨fun _ => .null, fun _ => ⟨.unset, rfl⟩⟩
  | array items =>
    simp only [ofJson, map_eq_ok_iff, patternsFrom_eq_ok_iff]
    constructor
    · rintro ⟨_, _, ⟨hlist, -⟩, -⟩
      exact .list hlist
    · rintro (_ | hlist)
      exact ⟨_, _, ⟨hlist, rfl⟩, rfl⟩
  | object members =>
    simp only [ofJson, map_eq_ok_iff, listsOf_eq_ok_iff]
    constructor
    · rintro ⟨_, _, ⟨hlists, -⟩, -⟩
      exact .mapping hlists
    · rintro (_ | _ | hlists)
      exact ⟨_, _, ⟨hlists, rfl⟩, rfl⟩
  | bool _ | integer _ | double _ | string _ =>
    constructor
    · rintro ⟨_, ⟨⟩⟩
    · rintro ⟨⟩

/-- A value with keys in order fails exactly with what is at fault first. -/
theorem ofJson_eq_error_iff {value : Json} (hordered : value.Ordered) (error : SkipTypesError) :
    ofJson value = .error error ↔ FirstFault value error := by
  cases value with
  | null =>
    constructor
    · rintro ⟨⟩
    · rintro ⟨⟨⟩⟩
  | array items =>
    rw [ofJson, map_eq_error_iff, patternsFrom_eq_error_iff]
    constructor
    · rintro ⟨behind, item, hfirst, rfl⟩
      rw [Nat.zero_add]
      exact .list hfirst
    · rintro (⟨⟨⟩⟩ | hfirst)
      exact ⟨_, _, hfirst, by rw [Nat.zero_add]⟩
  | object members =>
    rw [ofJson, map_eq_error_iff,
      listsOf_eq_error_iff ((Json.ordered_object_iff members).mp hordered).1]
  | bool _ | integer _ | double _ | string _ =>
    constructor
    · rintro ⟨⟩
      exact .shape trivial
    · rintro ⟨⟩
      rfl

/-- What is read from null instead of an empty list or mapping is the same. -/
theorem ofJson_orNull (value : Json) : ofJson value.orNull = ofJson value := by
  unfold Json.orNull
  split <;> rfl

/-- A plain list of patterns is written as it was. -/
theorem map_toJson_ofJson {value : Json} {depth : Nat} (hplain : value.Plain depth)
    (hle : depth ≤ Json.depthLimit) (hlist : value.IsPatternList) :
    Json.array ((value.parts.map TypeExpr.ofJson).map TypeExpr.toJson) = value := by
  cases value with
  | array items =>
    have hitems : ∀ item ∈ items, (TypeExpr.ofJson item).toJson = item := fun item hitem =>
      TypeExpr.toJson_ofJson (hplain.part hitem) hle
    rw [List.map_map]
    exact congrArg Json.array ((List.map_congr_left hitems).trans (List.map_id' items))
  | null | bool _ | integer _ | double _ | string _ | object _ => exact hlist.elim

/-- Plain lists of patterns for classes are written as they were. -/
theorem toJson_perClass_ofList {members : List (String × Json)} {depth : Nat}
    (hplain : (Json.object members).Plain depth) (hle : depth ≤ Json.depthLimit)
    (hlists : ∀ member ∈ members, member.2.IsPatternList) :
    (perClass (.ofList (members.map fun member =>
      (member.1, member.2.parts.map TypeExpr.ofJson)))).toJson = .object members := by
  have hentries := canonicalEntries_eq_self
    (hplain.ascending.map fun _ value => value.parts.map TypeExpr.ofJson)
  change Json.object ((canonicalEntries _).map _) = _
  rw [hentries, List.map_map]
  refine congrArg Json.object
    ((List.map_congr_left fun member hmember => ?_).trans (List.map_id' members))
  have hmemberPlain : member.2.Plain depth := hplain.part (List.mem_map_of_mem hmember)
  exact congrArg (Prod.mk member.1) (map_toJson_ofJson hmemberPlain hle (hlists member hmember))

/-- A configuration is written with null for an empty list or mapping. -/
theorem toJson_normalize (skips : SkipTypes) : skips.normalize.toJson = skips.toJson.orNull := by
  cases skips with
  | unset => rfl
  | global patterns => cases patterns <;> rfl
  | perClass lists =>
    obtain ⟨entries, hascending⟩ := lists
    cases entries <;> rfl

/-- What was read from a plain value is written as this value, with null for an empty list or
mapping. -/
theorem toJson_of_ofJson {value : Json} {skips : SkipTypes} (hplain : value.Plain Json.depthLimit)
    (hread : ofJson value = .ok skips) : skips.toJson = value.orNull := by
  cases value with
  | null =>
    obtain rfl := Except.ok.inj hread
    rfl
  | array items =>
    obtain ⟨list, hlist, rfl⟩ := map_eq_ok_iff.mp hread
    obtain ⟨hitems, rfl⟩ := (patternsFrom_eq_ok_iff ..).mp hlist
    rw [toJson_normalize]
    exact congrArg Json.orNull (map_toJson_ofJson hplain le_rfl hitems)
  | object members =>
    obtain ⟨lists, hlists, rfl⟩ := map_eq_ok_iff.mp hread
    obtain ⟨hmembers, rfl⟩ := (listsOf_eq_ok_iff ..).mp hlists
    rw [toJson_normalize, toJson_perClass_ofList hplain le_rfl hmembers]
  | bool _ | integer _ | double _ | string _ => cases hread

/-- Reading a plain value as a configuration. It succeeds exactly for null, for lists of patterns
without empty arrays and for mappings to such lists. What was read is written as the value, with
null for an empty list or mapping, is read from this again, and its patterns are free of empty
tuples. Anything else fails with what is at fault first. -/
theorem ofJson_decides {value : Json} (hplain : value.Plain Json.depthLimit) :
    ((∃ skips, ofJson value = .ok skips) ↔ Configures value) ∧
    (∀ skips, ofJson value = .ok skips →
      skips.toJson = value.orNull ∧ ofJson skips.toJson = .ok skips ∧
        ∀ pattern ∈ skips.patterns, pattern.hasEmptyTuple = false) ∧
    (∀ error, ofJson value = .error error ↔ FirstFault value error) := by
  refine ⟨exists_ofJson_eq_ok_iff value, fun skips hread => ?_, ofJson_eq_error_iff hplain.ordered⟩
  have hwritten := toJson_of_ofJson hplain hread
  have hagain : ofJson skips.toJson = .ok skips := by rw [hwritten, ofJson_orNull, hread]
  exact ⟨hwritten, hagain, fun pattern => (Checked.value hread).hasEmptyTuple⟩

/-- Lists of patterns for two classes, one with an object in the place of an argument and one
without patterns. -/
def queuePatterns : Json :=
  .object [
    ("Queue",
      .array [.string "float64", .array [.string "vector", .object [("extent", .array [])]]]),
    ("Stack", .array [])]

/-- Entries of three classes, of which the second has an empty array and the third is no list. -/
def shapePatterns : Json :=
  .object [
    ("Queue", .array []),
    ("Shape", .array [.string "int32", .array [.string "vector", .array []]]),
    ("Stack", .integer 3)]

/-- The lists for two classes are written as they were, and of two faults the one with the smaller
key is named. -/
theorem ofJson_decides_patterns :
    (queuePatterns.Plain Json.depthLimit ∧ ∃ skips, ofJson queuePatterns = .ok skips ∧
      skips.toJson = queuePatterns ∧ ofJson skips.toJson = .ok skips) ∧
    (shapePatterns.Plain Json.depthLimit ∧ ¬ Configures shapePatterns ∧
      FirstFault shapePatterns
        (.emptyTuple (some "Shape") 1 (.array [.string "vector", .array []]))) := by
  have hqueue : queuePatterns.Plain Json.depthLimit := by
    constructor
    · simp [queuePatterns, Json.depthLimit, Json.Exact, Json.ExactItems, Json.ExactMembers]
    · simp [queuePatterns, Json.Ordered, Json.OrderedItems, Json.OrderedMembers]
      decide
  have hshape : shapePatterns.Plain Json.depthLimit := by
    constructor
    · simp [shapePatterns, Json.depthLimit, Json.Exact, Json.ExactItems, Json.ExactMembers,
        Json.InWord, Json.Numeral.wordMax]
    · simp [shapePatterns, Json.Ordered, Json.OrderedItems, Json.OrderedMembers]
      decide
  obtain ⟨-, hwritten, -⟩ := ofJson_decides hqueue
  obtain ⟨hconfigures, -, hfault⟩ := ofJson_decides hshape
  have hrefused : ofJson shapePatterns =
      .error (.emptyTuple (some "Shape") 1 (.array [.string "vector", .array []])) := rfl
  refine ⟨⟨hqueue, _, rfl, (hwritten _ rfl).1, (hwritten _ rfl).2.1⟩,
    hshape, ?_, (hfault _).mp hrefused⟩
  intro h
  obtain ⟨skips, hread⟩ := hconfigures.mpr h
  cases hrefused.symm.trans hread

end SkipTypes

end TypeSieve
