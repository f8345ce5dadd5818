import TypeSieve.Model.Methods
import Mathlib.Data.List.Nodup

/-!
# Methods in plain lists

What looking up, setting and keeping do to a list of methods. A search stops at the first method
with a signature, and setting changes this one alone, so neither needs distinct signatures. They are
needed for a method that is listed to be found, and for a rule to be asked once about each
signature.
-/

namespace TypeSieve.Methods

variable {key other : Signature} {returns : Option TypeExpr} {entries : List MethodEntry}
  {rule : Signature → Option TypeExpr → Option (Option TypeExpr)}

/-- Nothing is found exactly if no method has the signature. -/
theorem lookup_eq_none_iff (key : Signature) (entries : List MethodEntry) :
    lookup key entries = none ↔ key ∉ entries.map Prod.fst := by
  induction entries with
  | nil => simp [lookup]
  | cons entry rest ih =>
    rw [lookup]
    split
    · next hsame => simp [hsame]
    · next hother => simp [ih, Ne.symm hother]

/-- What is found is listed. -/
theorem mem_of_lookup (h : lookup key entries = some returns) : (key, returns) ∈ entries := by
  induction entries with
  | nil => cases h
  | cons entry rest ih =>
    rw [lookup] at h
    split at h
    · next hsame =>
      rw [← hsame, ← Option.some.inj h]
      exact List.mem_cons_self ..
    · exact List.mem_cons_of_mem _ (ih h)

/-- Among distinct signatures, what is listed is found. -/
theorem lookup_eq_some_iff (hdistinct : (entries.map Prod.fst).Nodup) (key : Signature)
    (returns : Option TypeExpr) : lookup key entries = some returns ↔ (key, returns) ∈ entries := by
  refine ⟨mem_of_lookup, fun hmem => ?_⟩
  have hkey : lookup key entries ≠ none := by
    rw [ne_eq, lookup_eq_none_iff, not_not]
    exact List.mem_map.mpr ⟨_, hmem, rfl⟩
  obtain ⟨found, hfound⟩ := Option.ne_none_iff_exists'.mp hkey
  have hsame := List.inj_on_of_nodup_map hdistinct (mem_of_lookup hfound) hmem rfl
  rw [hfound, (Prod.mk.inj hsame).2]

/-- Setting a return type tells what was found before. -/
theorem put_fst (key : Signature) (returns : Option TypeExpr) (entries : List MethodEntry) :
    (put key returns entries).1 = lookup key entries := by
  induction entries with
  | nil => rfl
  | cons entry rest ih =>
    rw [put, lookup]
    split
    · rfl
    · exact ih

/-- What is set is found. -/
theorem lookup_put_self (key : Signature) (returns : Option TypeExpr) (entries : List MethodEntry) :
    lookup key (put key returns entries).2 = some returns := by
  induction entries with
  | nil => simp [put, lookup]
  | cons entry rest ih =>
    rw [put]
    split
    · next hsame => simp [lookup, hsame]
    · next hother => simpa [lookup, hother] using ih

/-- Setting a return type changes nothing for other signatures. -/
theorem lookup_put_of_ne (h : other ≠ key) (returns : Option TypeExpr)
    (entries : List MethodEntry) :
    lookup other (put key returns entries).2 = lookup other entries := by
  induction entries with
  | nil => simp [put, lookup, h.symm]
  | cons entry rest ih =>
    rw [put]
    split
    · next hsame =>
      have hentry : entry.1 ≠ other := fun hequal => h (hequal.symm.trans hsame)
      rw [lookup, lookup, if_neg hentry, if_neg hentry]
    · rw [Prod.map_snd, lookup, lookup, ih]

/-- A rule that keeps a method keeps it in front of what it keeps of the others. -/
theorem retainEntries_cons (rule : Signature → Option TypeExpr → Option (Option TypeExpr))
    (entry : MethodEntry) (rest : List MethodEntry) :
    retainEntries rule (entry :: rest) =
      ((rule entry.1 entry.2).map fun kept => (entry.1, kept)).toList ++
        retainEntries rule rest := by
  rw [retainEntries, List.filterMap_cons]
  cases rule entry.1 entry.2 <;> rfl

/-- Rules that answer alike about the methods of a list keep the same of it. -/
theorem retainEntries_congr {rule' : Signature → Option TypeExpr → Option (Option TypeExpr)}
    (h : ∀ entry ∈ entries, rule entry.1 entry.2 = rule' entry.1 entry.2) :
    retainEntries rule entries = retainEntries rule' entries :=
  List.filterMap_congr fun entry hentry => by rw [h entry hentry]

/-- Among distinct signatures, a signature is found with what the rule answers about it. -/
theorem lookup_retainEntries (rule : Signature → Option TypeExpr → Option (Option TypeExpr))
    (hdistinct : (entries.map Prod.fst).Nodup) (key : Signature) :
    lookup key (retainEntries rule entries) = (lookup key entries).bind (rule key) := by
  induction entries with
  | nil => rfl
  | cons entry rest ih =>
    obtain ⟨hfresh, hrest⟩ := List.nodup_cons.mp hdistinct
    rw [retainEntries_cons, lookup]
    split
    · next hsame =>
      subst hsame
      cases hkept : rule entry.1 entry.2 with
      | none =>
        -- The rule drops the method, and no other has its signature.
        rw [Option.bind_some, hkept]
        refine (ih hrest).trans ?_
        rw [(lookup_eq_none_iff ..).mpr hfresh]
        rfl
      | some kept => simp [lookup, hkept]
    · next hother =>
      cases rule entry.1 entry.2 with
      | none => exact ih hrest
      | some kept => simpa [lookup, hother] using ih hrest

/-- Among distinct signatures, those are kept in their order about which the rule answers with a
return type. -/
theorem map_fst_retainEntries (rule : Signature → Option TypeExpr → Option (Option TypeExpr))
    (hdistinct : (entries.map Prod.fst).Nodup) :
    (retainEntries rule entries).map Prod.fst =
      (entries.map Prod.fst).filter fun key => ((lookup key entries).bind (rule key)).isSome := by
  induction entries with
  | nil => rfl
  | cons entry rest ih =>
    obtain ⟨hfresh, hrest⟩ := List.nodup_cons.mp hdistinct
    have hothers :
        (rest.map Prod.fst).filter
          (fun key => ((lookup key (entry :: rest)).bind (rule key)).isSome) =
        (retainEntries rule rest).map Prod.fst := by
      rw [ih hrest]
      refine List.filter_congr fun key hkey => ?_
      have hother : entry.1 ≠ key := fun hsame => hfresh (hsame ▸ hkey)
      rw [lookup, if_neg hother]
    have hfirst : lookup entry.1 (entry :: rest) = some entry.2 := if_pos rfl
    rw [retainEntries_cons, List.map_cons, List.filter_cons, hothers, hfirst,
      Option.bind_some, List.map_append]
    cases rule entry.1 entry.2 <;> rfl

end TypeSieve.Methods
