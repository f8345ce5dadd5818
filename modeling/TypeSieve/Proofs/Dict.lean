import TypeSieve.Dict
import Mathlib.Data.List.Forall2
import Mathlib.Data.List.Nodup
import Mathlib.Data.List.Perm.Basic

/-!
# Looking up dictionary entries

The keys of a dictionary ascend strictly, so a key has at most one entry and the lookups determine
the dictionary. Mapping, filtering and inserting act on each lookup separately.
-/

namespace TypeSieve

variable {α β : Type}

/-- A key finds nothing exactly when no entry has it. -/
theorem findEntry_eq_none_iff (key : String) (entries : List (String × α)) :
    findEntry key entries = none ↔ key ∉ entries.map Prod.fst := by
  induction entries with
  | nil => simp [findEntry]
  | cons head rest ih =>
    obtain ⟨k, v⟩ := head
    by_cases hk : k = key
    · simp [findEntry, hk]
    · simp [findEntry, hk, Ne.symm hk, ih]

/-- What a key finds is an entry. -/
theorem mem_of_findEntry {key : String} {value : α} {entries : List (String × α)}
    (h : findEntry key entries = some value) : (key, value) ∈ entries := by
  induction entries with
  | nil => simp [findEntry] at h
  | cons head rest ih =>
    obtain ⟨k, v⟩ := head
    by_cases hk : k = key
    · simp only [findEntry, if_pos hk, Option.some.injEq] at h
      simp [hk, h]
    · simp only [findEntry, if_neg hk] at h
      exact List.mem_cons_of_mem _ (ih h)

/-- Where no two entries share a key, a key finds exactly the value of its entry. -/
theorem findEntry_eq_some_iff {entries : List (String × α)} (hkeys : (entries.map Prod.fst).Nodup)
    (key : String) (value : α) : findEntry key entries = some value ↔ (key, value) ∈ entries := by
  refine ⟨mem_of_findEntry, fun hmem => ?_⟩
  induction entries with
  | nil => simp at hmem
  | cons head rest ih =>
    obtain ⟨k, v⟩ := head
    obtain ⟨hfresh, hrest⟩ := List.nodup_cons.mp hkeys
    rcases List.mem_cons.mp hmem with heq | hmem
    · obtain ⟨rfl, rfl⟩ := Prod.mk.inj heq
      simp [findEntry]
    · have hk : k ≠ key := by
        intro heq
        exact hfresh (List.mem_map.mpr ⟨(key, value), hmem, heq.symm⟩)
      rw [findEntry, if_neg hk]
      exact ih hrest hmem

/-- Strictly ascending keys are distinct. -/
theorem Ascending.nodup_keys {entries : List (String × α)} (h : Ascending entries) :
    (entries.map Prod.fst).Nodup := by
  refine List.pairwise_map.mpr (List.Pairwise.imp ?_ h)
  intro a b hlt heq
  exact String.lt_irrefl b.1 (heq ▸ hlt)

/-- Changing values keeps keys strictly ascending. -/
theorem Ascending.map {entries : List (String × α)} (h : Ascending entries) (f : String → α → β) :
    Ascending (entries.map fun entry => (entry.1, f entry.1 entry.2)) := List.pairwise_map.mpr h

/-- Changing values changes what a key finds. -/
theorem findEntry_map (key : String) (entries : List (String × α)) (f : String → α → β) :
    findEntry key (entries.map fun entry => (entry.1, f entry.1 entry.2)) =
      (findEntry key entries).map (f key) := by
  induction entries with
  | nil => rfl
  | cons head rest ih =>
    obtain ⟨k, v⟩ := head
    by_cases hk : k = key
    · simp [findEntry, hk]
    · simpa [findEntry, hk] using ih

/-- A key that passes a test finds the same among the entries whose keys pass it. -/
theorem findEntry_filter (test : String → Bool) {key : String} (h : test key = true)
    (entries : List (String × α)) :
    findEntry key (entries.filter fun entry => test entry.1) = findEntry key entries := by
  induction entries with
  | nil => rfl
  | cons head rest ih =>
    obtain ⟨k, v⟩ := head
    by_cases hk : k = key
    · simp [findEntry, hk, h]
    · cases hpass : test k <;> simpa [findEntry, hk, hpass] using ih

/-- Entries with strictly ascending keys are determined by what is among them. -/
theorem Ascending.eq_of_mem_iff {a b : List (String × α)} (ha : Ascending a) (hb : Ascending b)
    (h : ∀ entry, entry ∈ a ↔ entry ∈ b) : a = b := by
  have hperm : a.Perm b :=
    (List.perm_ext_iff_of_nodup ha.nodup_keys.of_map hb.nodup_keys.of_map).mpr h
  refine List.Perm.eq_of_pairwise (fun x y _ _ hxy hyx => ?_) ha hb hperm
  exact absurd (String.lt_trans hxy hyx) (String.lt_irrefl x.1)

/-- Entries with strictly ascending keys are determined by what each key finds. -/
theorem Ascending.eq_of_findEntry_eq {a b : List (String × α)} (ha : Ascending a) (hb : Ascending b)
    (h : ∀ key, findEntry key a = findEntry key b) : a = b := by
  refine ha.eq_of_mem_iff hb fun entry => ?_
  obtain ⟨key, value⟩ := entry
  rw [← findEntry_eq_some_iff ha.nodup_keys, ← findEntry_eq_some_iff hb.nodup_keys, h key]

/-- Among entries with strictly ascending keys those in front of one are those with a smaller
key. -/
theorem Ascending.mem_before_iff {before after : List (String × α)} {entry : String × α}
    (h : Ascending (before ++ entry :: after)) (other : String × α) :
    other ∈ before ↔ other ∈ before ++ entry :: after ∧ other.1 < entry.1 := by
  obtain ⟨-, hafter, hcross⟩ := List.pairwise_append.mp h
  constructor
  · intro hbefore
    exact ⟨List.mem_append_left _ hbefore, hcross other hbefore entry (List.mem_cons_self ..)⟩
  · rintro ⟨hmem, hlt⟩
    rcases List.mem_append.mp hmem with hbefore | hbehind
    · exact hbefore
    · rcases List.mem_cons.mp hbehind with rfl | hbehind
      · exact absurd hlt (String.lt_irrefl _)
      · exact absurd hlt (String.lt_asymm ((List.pairwise_cons.mp hafter).1 other hbehind))

/-- Inserting an entry behind all others puts it last. -/
theorem insertEntry_eq_append {key : String} {value : α} {entries : List (String × α)}
    (h : Ascending (entries ++ [(key, value)])) :
    insertEntry key value entries = entries ++ [(key, value)] := by
  induction entries with
  | nil => rfl
  | cons head rest ih =>
    obtain ⟨k, v⟩ := head
    obtain ⟨hfirst, hrest⟩ := List.pairwise_cons.mp h
    have hlt := hfirst (key, value) (by simp)
    rw [insertEntry, if_neg (String.lt_asymm hlt), if_pos hlt, ih hrest, List.cons_append]

/-- Entries in strictly ascending key order are canonical. -/
theorem canonicalEntries_eq_self {entries : List (String × α)} (h : Ascending entries) :
    canonicalEntries entries = entries := by
  suffices ∀ sorted, Ascending (sorted ++ entries) →
      entries.foldl (fun sorted entry => insertEntry entry.1 entry.2 sorted) sorted =
        sorted ++ entries from this [] h
  clear h
  induction entries with
  | nil => exact fun sorted _ => (List.append_nil sorted).symm
  | cons entry rest ih =>
    intro sorted hsorted
    have hsplit : sorted ++ entry :: rest = sorted ++ [entry] ++ rest := by simp
    rw [hsplit] at hsorted ⊢
    have hlast : Ascending (sorted ++ [entry]) := (List.pairwise_append.mp hsorted).1
    rw [List.foldl_cons, insertEntry_eq_append hlast]
    exact ih _ hsorted

/-- An inserted key has its value, and every other key what it had. -/
theorem findEntry_insertEntry (key k : String) (v : α) (entries : List (String × α)) :
    findEntry key (insertEntry k v entries) =
      if k = key then some v else findEntry key entries := by
  induction entries with
  | nil => rfl
  | cons head rest ih =>
    obtain ⟨k', v'⟩ := head
    unfold insertEntry
    split
    · rfl
    · next hnot =>
      split
      · next habove =>
        by_cases hk : k' = key
        · have hne : k ≠ key := by
            intro heq
            rw [hk, heq] at habove
            exact String.lt_irrefl _ habove
          simp [findEntry, hk, hne]
        · simpa [findEntry, hk] using ih
      · next hnot' =>
        obtain rfl : k = k' := key_eq_of_not_lt hnot hnot'
        by_cases hk : k = key
        · simp [findEntry, hk]
        · simp [findEntry, hk]

/-- In canonical entries a key has the last of its values. -/
theorem findEntry_canonicalEntries (key : String) (entries : List (String × α)) :
    findEntry key (canonicalEntries entries) = findEntry key entries.reverse := by
  suffices ∀ sorted, findEntry key
      (entries.foldl (fun sorted entry => insertEntry entry.1 entry.2 sorted) sorted) =
        findEntry key (entries.reverse ++ sorted) by
    rw [canonicalEntries, this, List.append_nil]
  induction entries with
  | nil => exact fun _ => rfl
  | cons entry rest ih =>
    intro sorted
    have happend : ∀ a b : List (String × α), findEntry key (a ++ b) =
        (findEntry key a).or (findEntry key b) := by
      intro a b
      induction a with
      | nil => rfl
      | cons head tail ih =>
        by_cases hk : head.1 = key
        · simp [findEntry, hk]
        · simpa [findEntry, hk] using ih
    rw [List.foldl_cons, ih, List.reverse_cons, List.append_assoc, happend, happend rest.reverse,
      findEntry_insertEntry]
    rfl

/-- Where no two entries share a key, canonical entries have the same lookups. -/
theorem findEntry_canonicalEntries_of_nodup {entries : List (String × α)}
    (hkeys : (entries.map Prod.fst).Nodup) (key : String) :
    findEntry key (canonicalEntries entries) = findEntry key entries := by
  have hreverse : (entries.reverse.map Prod.fst).Nodup := by
    rw [List.map_reverse]
    exact List.nodup_reverse.mpr hkeys
  rw [findEntry_canonicalEntries]
  refine Option.ext fun value => ?_
  rw [findEntry_eq_some_iff hreverse, findEntry_eq_some_iff hkeys, List.mem_reverse]

/-- Canonical entries are among the entries. -/
theorem mem_of_mem_canonicalEntries {entry : String × α} {entries : List (String × α)}
    (h : entry ∈ canonicalEntries entries) : entry ∈ entries := by
  have hfind := (findEntry_eq_some_iff (ascending_canonicalEntries entries).nodup_keys _ _).mpr h
  rw [findEntry_canonicalEntries] at hfind
  exact List.mem_reverse.mp (mem_of_findEntry hfind)

/-- Corresponding entries have the same key. -/
def KeysAgree (R : String × α → String × β → Prop) : Prop :=
  ∀ entry other, R entry other → other.1 = entry.1

/-- Corresponding entries are inserted into corresponding ones. -/
theorem forall₂_insertEntry {R : String × α → String × β → Prop} (hkeys : KeysAgree R)
    {key : String} {a : α} {b : β} (hentry : R (key, a) (key, b)) {entries : List (String × α)}
    {others : List (String × β)} (h : List.Forall₂ R entries others) :
    List.Forall₂ R (insertEntry key a entries) (insertEntry key b others) := by
  induction h with
  | nil => exact .cons hentry .nil
  | @cons head other rest others hhead hrest ih =>
    obtain ⟨k, v⟩ := head
    obtain ⟨k', w⟩ := other
    obtain rfl : k' = k := hkeys _ _ hhead
    simp only [insertEntry]
    split_ifs
    · exact .cons hentry (.cons hhead hrest)
    · exact .cons hhead ih
    · exact .cons hentry hrest

/-- Of corresponding entries the canonical ones correspond. -/
theorem forall₂_canonicalEntries {R : String × α → String × β → Prop} (hkeys : KeysAgree R)
    {entries : List (String × α)} {others : List (String × β)} (h : List.Forall₂ R entries others) :
    List.Forall₂ R (canonicalEntries entries) (canonicalEntries others) := by
  refine List.rel_foldl (fun sorted sorted' hsorted entry other hentry => ?_) .nil h
  obtain ⟨key, a⟩ := entry
  obtain ⟨key', b⟩ := other
  obtain rfl : key' = key := hkeys _ _ hentry
  exact forall₂_insertEntry hkeys hentry hsorted

/-- Corresponding entries have the same keys. -/
theorem map_fst_of_forall₂ {R : String × α → String × β → Prop} (hkeys : KeysAgree R)
    {entries : List (String × α)} {others : List (String × β)} (h : List.Forall₂ R entries others) :
    others.map Prod.fst = entries.map Prod.fst := by
  induction h with
  | nil => rfl
  | cons hentry _ ih => rw [List.map_cons, List.map_cons, hkeys _ _ hentry, ih]

/-- Under each key of corresponding entries are corresponding values, or there is none on both
sides. -/
theorem rel_findEntry {R : String × α → String × β → Prop} (hkeys : KeysAgree R)
    {entries : List (String × α)} {others : List (String × β)} (h : List.Forall₂ R entries others)
    (key : String) :
    Option.Rel (fun a b => R (key, a) (key, b)) (findEntry key entries) (findEntry key others) := by
  induction h with
  | nil => exact .none
  | @cons entry other _ _ hentry _ ih =>
    obtain ⟨k, a⟩ := entry
    obtain ⟨k', b⟩ := other
    obtain rfl : k' = k := hkeys _ _ hentry
    by_cases hk : k' = key
    · subst hk
      simpa [findEntry] using Option.Rel.some hentry
    · simpa [findEntry, hk] using ih

/-- Changing values leaves canonical entries those of the changed values. -/
theorem canonicalEntries_map (entries : List (String × α)) (f : α → β) :
    canonicalEntries (entries.map fun entry => (entry.1, f entry.2)) =
      (canonicalEntries entries).map fun entry => (entry.1, f entry.2) := by
  have hmap : List.Forall₂ (fun entry other => (entry.1, f entry.2) = other) entries
      (entries.map fun entry => (entry.1, f entry.2)) := by
    rw [List.forall₂_map_right_iff, List.forall₂_same]
    exact fun _ _ => rfl
  have hcanonical := forall₂_canonicalEntries (fun _ _ heq => heq ▸ rfl) hmap
  rw [← List.forall₂_map_left_iff, List.forall₂_eq_eq_eq] at hcanonical
  exact hcanonical.symm

namespace Dict

/-- A key has a value exactly when the two are an entry. -/
theorem get?_eq_some_iff (d : Dict α) (key : String) (value : α) :
    d.get? key = some value ↔ (key, value) ∈ d.entries :=
  findEntry_eq_some_iff d.ascending.nodup_keys key value

/-- A dictionary in which some key has a value is not empty. -/
theorem isEmpty_eq_false {d : Dict α} {key : String} {value : α} (h : d.get? key = some value) :
    d.isEmpty = false := by
  rw [get?_eq_some_iff] at h
  rw [isEmpty, List.isEmpty_eq_false_iff]
  exact List.ne_nil_of_mem h

/-- A key has no value exactly when it is none of the keys. -/
theorem get?_eq_none_iff (d : Dict α) (key : String) : d.get? key = none ↔ key ∉ d.keys :=
  findEntry_eq_none_iff key d.entries

/-- Two dictionaries in which every key has the same value are equal. -/
theorem ext_get? {a b : Dict α} (h : ∀ key, a.get? key = b.get? key) : a = b :=
  Dict.ext (a.ascending.eq_of_findEntry_eq b.ascending h)

/-- An inserted key has its value, and every other key what it had. -/
theorem get?_insert (d : Dict α) (k : String) (value : α) (key : String) :
    (d.insert k value).get? key = if k = key then some value else d.get? key :=
  findEntry_insertEntry key k value d.entries

/-- Changing the values changes what a key finds. -/
@[simp] theorem get?_map (d : Dict α) (f : String → α → β) (key : String) :
    (d.map f).get? key = (d.get? key).map (f key) := findEntry_map key d.entries f

/-- Changing the values twice is changing them once. -/
theorem map_map {γ : Type} (d : Dict α) (f : String → α → β) (g : String → β → γ) :
    (d.map f).map g = d.map fun key value => g key (f key value) :=
  Dict.ext List.map_map

/-- A dictionary is that of its entries. -/
theorem ofList_entries (d : Dict α) : ofList d.entries = d :=
  Dict.ext (canonicalEntries_eq_self d.ascending)

section Corresponding

variable {R : String × α → String × β → Prop} (hkeys : KeysAgree R) {entries : List (String × α)}
  {others : List (String × β)} (hascending : Ascending entries) (h : List.Forall₂ R entries others)
include hkeys hascending h

/-- Entries with strictly ascending keys correspond to those of the dictionary of the entries that
they correspond to. -/
theorem forall₂_entries_ofList : List.Forall₂ R entries (ofList others).entries := by
  have hcanonical := forall₂_canonicalEntries hkeys h
  rwa [canonicalEntries_eq_self hascending] at hcanonical

/-- The dictionary has the keys of these entries. -/
theorem keys_ofList_of_forall₂ : (ofList others).keys = entries.map Prod.fst :=
  map_fst_of_forall₂ hkeys (forall₂_entries_ofList hkeys hascending h)

/-- Under each key of the dictionary is what corresponds to what these entries have under it. -/
theorem rel_get?_ofList (key : String) :
    Option.Rel (fun a b => R (key, a) (key, b)) (findEntry key entries)
      ((ofList others).get? key) :=
  rel_findEntry hkeys (forall₂_entries_ofList hkeys hascending h) key

end Corresponding

/-- A key keeps its value exactly when the two pass the test. -/
theorem get?_filter_eq_some_iff (d : Dict α) (test : String → α → Bool) (key : String) (value : α) :
    (d.filter test).get? key = some value ↔ d.get? key = some value ∧ test key value = true := by
  rw [get?_eq_some_iff, get?_eq_some_iff]
  exact List.mem_filter

end Dict

end TypeSieve
