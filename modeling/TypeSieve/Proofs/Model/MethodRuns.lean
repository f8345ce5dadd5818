import TypeSieve.Proofs.Model.MethodLists
import TypeSieve.Proofs.Model.SavedMethods

/-!
# Runs of changes of a method list

A method list is read, return types are set, and methods are kept or dropped, in any order and any
number of times. The same changes of a plain list, which carries no proof that its signatures are
distinct and looks a signature up before it adds a method, arrive at the same entries. So signatures
are distinct after every run, and looking up, setting and keeping follow the laws of a map in
insertion order.
-/

namespace TypeSieve.Methods

/-- A change of a method list. -/
inductive Edit where
  | read (value : Json)
  | insert (key : Signature) (returns : Option TypeExpr)
  | retain (rule : Signature → Option TypeExpr → Option (Option TypeExpr))

/-- The methods after a change. A value that is no method list changes nothing. -/
def edit (m : Methods) : Edit → Methods
  | .read value =>
    match ofJson value with
    | .ok loaded => loaded
    | .error _ => m
  | .insert key returns => m.insert key returns
  | .retain rule => m.retain rule

/-- Put entries behind others one by one; the first whose signature is found there already is
refused. -/
def appendNew (others : List MethodEntry) : List MethodEntry → Except Signature (List MethodEntry)
  | [] => .ok others
  | entry :: rest =>
    if (lookup entry.1 others).isSome then .error entry.1 else appendNew (others ++ [entry]) rest

/-- Read a plain list of methods. -/
def plainOfJson (value : Json) : Except ModelError (List MethodEntry) := do
  let entries ← (← value.asArray).mapM entryOfJson
  (appendNew [] entries).mapError .duplicate

/-- The plain list of methods after a change. -/
def editEntries (entries : List MethodEntry) : Edit → List MethodEntry
  | .read value =>
    match plainOfJson value with
    | .ok loaded => loaded
    | .error _ => entries
  | .insert key returns => (put key returns entries).2
  | .retain rule => retainEntries rule entries

/-- The methods after a run of changes, from none. -/
def run (edits : List Edit) : Methods := edits.foldl edit empty

/-- The plain list of methods after a run of changes, from none. -/
def runEntries (edits : List Edit) : List MethodEntry := edits.foldl editEntries []

/-- Adding to methods refuses what adding to their plain list refuses, and adds the same
otherwise. -/
theorem map_entries_extend (m : Methods) (added : List MethodEntry) :
    (m.extend added).map entries = appendNew m.entries added := by
  induction added generalizing m with
  | nil => rfl
  | cons entry rest ih =>
    have hfound : (lookup entry.1 m.entries).isSome = true ↔ entry.1 ∈ m.keys := by
      rw [Option.isSome_iff_ne_none, ne_eq, lookup_eq_none_iff, not_not]
      rfl
    rw [extend, appendNew]
    split
    · next hpresent => rw [if_pos (hfound.mpr hpresent)]; rfl
    · next hfresh => rw [if_neg (mt hfound.mp hfresh), ih]; rfl

/-- Methods are read as their plain list is. -/
theorem map_entries_ofJson (value : Json) : (ofJson value).map entries = plainOfJson value := by
  rw [ofJson, plainOfJson]
  cases value.asArray with
  | error e => rfl
  | ok items =>
    change ((items.mapM entryOfJson) >>= _).map entries = (items.mapM entryOfJson) >>= _
    cases items.mapM entryOfJson with
    | error e => rfl
    | ok added =>
      change ((empty.extend added).mapError ModelError.duplicate).map entries =
        (appendNew empty.entries added).mapError .duplicate
      rw [← map_entries_extend]
      cases empty.extend added <;> rfl

/-- A change of methods changes their plain list alike. -/
theorem entries_edit (m : Methods) (e : Edit) : (m.edit e).entries = editEntries m.entries e := by
  cases e with
  | read value =>
    rw [edit, editEntries, ← map_entries_ofJson]
    cases ofJson value <;> rfl
  | insert key returns => rfl
  | retain rule => rfl

/-- A run of changes of methods changes their plain list alike. -/
theorem entries_foldl_edit (edits : List Edit) (m : Methods) :
    (edits.foldl edit m).entries = edits.foldl editEntries m.entries := by
  induction edits generalizing m with
  | nil => rfl
  | cons e edits ih => rw [List.foldl_cons, List.foldl_cons, ih, entries_edit]

/-- The number, the signatures and the entries of methods and what is found among them agree: there
are as many methods as signatures, these are distinct, and a signature finds the return type that is
listed with it. -/
structure Consistent (m : Methods) : Prop where
  distinct : m.keys.Nodup
  size : m.size = m.keys.length
  found : m.keys.map m.get? = m.entries.map fun entry => some entry.2
  get (key : Signature) (returns : Option TypeExpr) : m.get? key = some returns ↔
    (key, returns) ∈ m.entries
  absent (key : Signature) : m.get? key = none ↔ key ∉ m.keys

/-- What setting a return type tells and leaves: it tells what was found before, and finds the new
one; every other signature finds what it did, and a new signature comes last. -/
structure Exchanged (m : Methods) (key : Signature) (returns : Option TypeExpr)
    (former : Option (Option TypeExpr)) (after : Methods) : Prop where
  former_eq : former = m.get? key
  get_self : after.get? key = some returns
  get_other (other : Signature) (hother : other ≠ key) : after.get? other = m.get? other
  keys_present (hpresent : key ∈ m.keys) : after.keys = m.keys
  keys_absent (habsent : key ∉ m.keys) : after.keys = m.keys ++ [key]

/-- What keeping methods leaves: the signatures that the rule accepts in their order, each with the
return type that the rule gives it. -/
structure Retained (m : Methods) (rule : Signature → Option TypeExpr → Option (Option TypeExpr))
    (after : Methods) : Prop where
  keys : after.keys = m.keys.filter fun key => ((m.get? key).bind (rule key)).isSome
  get (key : Signature) : after.get? key = (m.get? key).bind (rule key)

/-- Keep the methods that a rule with a memory keeps, which is asked about one after another. -/
def retainAsked {σ : Type} (ask : σ → MethodEntry → σ × Option (Option TypeExpr)) :
    σ → List MethodEntry → List MethodEntry
  | _, [] => []
  | memory, entry :: rest =>
    match ask memory entry with
    | (next, none) => retainAsked ask next rest
    | (next, some kept) => (entry.1, kept) :: retainAsked ask next rest

/-- Methods are consistent. -/
theorem consistent (m : Methods) : m.Consistent where
  distinct := m.distinct
  size := (List.length_map ..).symm
  found := by
    rw [keys, List.map_map]
    exact List.map_congr_left fun entry hentry => (lookup_eq_some_iff m.distinct ..).mpr hentry
  get := lookup_eq_some_iff m.distinct
  absent key := lookup_eq_none_iff key m.entries

/-- Setting a return type does this. -/
theorem exchanged_exchange (m : Methods) (key : Signature) (returns : Option TypeExpr) :
    m.Exchanged key returns (m.exchange key returns).1 (m.exchange key returns).2 where
  former_eq := put_fst key returns m.entries
  get_self := lookup_put_self key returns m.entries
  get_other _ hother := lookup_put_of_ne hother returns m.entries
  keys_present hpresent := (map_fst_put ..).trans (if_pos hpresent)
  keys_absent habsent := (map_fst_put ..).trans (if_neg habsent)

/-- Keeping methods does this. -/
theorem retained_retain (m : Methods)
    (rule : Signature → Option TypeExpr → Option (Option TypeExpr)) :
    m.Retained rule (m.retain rule) where
  keys := map_fst_retainEntries rule m.distinct
  get := lookup_retainEntries rule m.distinct

/-- Among distinct signatures, what a rule with a memory answers is what some rule without one
answers. -/
theorem exists_retainEntries_eq_retainAsked {σ : Type}
    (ask : σ → MethodEntry → σ × Option (Option TypeExpr)) (memory : σ) {entries : List MethodEntry}
    (hdistinct : (entries.map Prod.fst).Nodup) :
    ∃ rule, retainEntries rule entries = retainAsked ask memory entries := by
  induction entries generalizing memory with
  | nil => exact ⟨fun _ _ => none, rfl⟩
  | cons entry rest ih =>
    obtain ⟨hfresh, hrest⟩ := List.nodup_cons.mp hdistinct
    obtain ⟨rule, hrule⟩ := ih (ask memory entry).1 hrest
    -- The first method has its answer, and the others are asked about under other signatures.
    refine ⟨fun key returns => if key = entry.1 then (ask memory entry).2 else rule key returns, ?_⟩
    have hothers : retainEntries
        (fun key returns => if key = entry.1 then (ask memory entry).2 else rule key returns)
        rest = retainEntries rule rest := by
      refine retainEntries_congr fun other hmem => if_neg fun hsame => hfresh ?_
      exact hsame ▸ List.mem_map.mpr ⟨other, hmem, rfl⟩
    rw [retainEntries_cons, hothers, hrule, if_pos rfl, retainAsked]
    rcases ask memory entry with ⟨next, _ | kept⟩ <;> rfl

/-- Method lists are maps in insertion order. After every run of changes the plain list has distinct
signatures and is that of the methods, whose number, signatures, entries and return types agree.
Setting a return type tells what was found before, changes it for this signature alone and adds only
a new signature, as the last one. Keeping methods leaves the accepted ones in their order with the
return types that they are given, and a rule with a memory leaves what some rule without one
does. -/
theorem run_in_insertion_order (edits : List Edit) :
    ((runEntries edits).map Prod.fst).Nodup ∧
    runEntries edits = (run edits).entries ∧
    (run edits).Consistent ∧
    (∀ key returns, (run edits).Exchanged key returns ((run edits).exchange key returns).1
      ((run edits).exchange key returns).2) ∧
    (∀ rule, (run edits).Retained rule ((run edits).retain rule)) ∧
    (∀ (σ : Type) (ask : σ → MethodEntry → σ × Option (Option TypeExpr)) (memory : σ),
      ∃ rule, ((run edits).retain rule).entries = retainAsked ask memory (run edits).entries) := by
  have hentries : runEntries edits = (run edits).entries := (entries_foldl_edit edits empty).symm
  refine ⟨?_, hentries, consistent _, exchanged_exchange _, retained_retain _, ?_⟩
  · rw [hentries]
    exact (run edits).distinct
  · intro σ ask memory
    exact exists_retainEntries_eq_retainAsked ask memory (run edits).distinct

/-- A signature that is set again keeps its place. -/
example :
    (run [.insert ⟨"f", []⟩ none, .insert ⟨"g", []⟩ none,
      .insert ⟨"f", []⟩ (some (.leaf "int32"))]).entries =
    [(⟨"f", []⟩, some (.leaf "int32")), (⟨"g", []⟩, none)] := by
  decide

end TypeSieve.Methods
