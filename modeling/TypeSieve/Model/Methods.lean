import TypeSieve.Model.Signature

/-!
# Method lists

The methods of a class in declaration order, each with its return type; a constructor or destructor
has none. No two methods have the same signature. Setting a method that is present replaces its
return type in place, and a new method comes last.
-/

namespace TypeSieve

/-- A method with its return type. -/
abbrev MethodEntry := Signature × Option TypeExpr

/-- The methods of a class, with distinct signatures. -/
@[ext] structure Methods where
  entries : List MethodEntry
  distinct : (entries.map Prod.fst).Nodup

namespace Methods

instance : DecidableEq Methods := fun a b =>
  decidable_of_iff (a.entries = b.entries) ⟨Methods.ext, congrArg entries⟩

/-- No methods. -/
def empty : Methods := ⟨[], List.nodup_nil⟩

/-- The signatures in declaration order. -/
def keys (m : Methods) : List Signature := m.entries.map Prod.fst

/-- The number of methods. -/
def size (m : Methods) : Nat := m.entries.length

/-- The return type entry of the first method with a signature. -/
def lookup (key : Signature) : List MethodEntry → Option (Option TypeExpr)
  | [] => none
  | entry :: rest => if entry.1 = key then some entry.2 else lookup key rest

/-- The return type of a signature, if there is such a method. -/
def get? (m : Methods) (key : Signature) : Option (Option TypeExpr) := lookup key m.entries

/-- The first method with a name. -/
def named? (m : Methods) (name : String) : Option MethodEntry :=
  m.entries.find? fun entry => entry.1.name == name

/-- Set the return type of the first method with a signature, or add the method behind the others.
What the signature had before comes with the list. -/
def put (key : Signature) (returns : Option TypeExpr) :
    List MethodEntry → Option (Option TypeExpr) × List MethodEntry
  | [] => (none, [(key, returns)])
  | entry :: rest =>
    if entry.1 = key then (some entry.2, (entry.1, returns) :: rest)
    else (put key returns rest).map id (entry :: ·)

/-- Setting a return type keeps the signatures, with a new one behind them. -/
theorem map_fst_put (key : Signature) (returns : Option TypeExpr) (entries : List MethodEntry) :
    (put key returns entries).2.map Prod.fst =
      if key ∈ entries.map Prod.fst then entries.map Prod.fst
      else entries.map Prod.fst ++ [key] := by
  induction entries with
  | nil => rfl
  | cons entry rest ih =>
    rw [put]
    split
    · next same => simp [same]
    · next other =>
      rw [Prod.map_snd, List.map_cons, ih]
      by_cases present : key ∈ rest.map Prod.fst <;> simp [present, Ne.symm other]

/-- A signature behind others is distinct from them if it is new. -/
theorem nodup_concat {keys : List Signature} (h : keys.Nodup) {key : Signature}
    (fresh : key ∉ keys) : (keys ++ [key]).Nodup := by
  rw [List.nodup_append]
  refine ⟨h, by simp, ?_⟩
  rintro a member b single rfl
  exact fresh (List.mem_singleton.mp single ▸ member)

/-- Setting a return type keeps the signatures distinct. -/
theorem nodup_put {entries : List MethodEntry} (h : (entries.map Prod.fst).Nodup) (key : Signature)
    (returns : Option TypeExpr) : ((put key returns entries).2.map Prod.fst).Nodup := by
  rw [map_fst_put]
  split
  · exact h
  · next absent =>
    exact nodup_concat h absent

/-- Add a method with a new signature behind the others. -/
def push (m : Methods) (key : Signature) (returns : Option TypeExpr)
    (fresh : key ∉ m.keys) : Methods :=
  ⟨m.entries ++ [(key, returns)], by
    rw [List.map_append]
    exact nodup_concat m.distinct fresh⟩

/-- Set the return type of a signature, in place or behind the others. What the signature had before
comes with the methods. -/
def exchange (m : Methods) (key : Signature) (returns : Option TypeExpr) :
    Option (Option TypeExpr) × Methods :=
  let result := put key returns m.entries
  (result.1, ⟨result.2, nodup_put m.distinct key returns⟩)

/-- Set the return type of a signature, in place or behind the others. -/
def insert (m : Methods) (key : Signature) (returns : Option TypeExpr) : Methods :=
  (m.exchange key returns).2

/-- Keep the methods that a rule keeps, with the return types that it gives them. -/
def retainEntries (rule : Signature → Option TypeExpr → Option (Option TypeExpr))
    (entries : List MethodEntry) : List MethodEntry :=
  entries.filterMap fun entry => (rule entry.1 entry.2).map fun returns => (entry.1, returns)

/-- What is kept has signatures of before in the same order. -/
theorem map_fst_retainEntries_sublist
    (rule : Signature → Option TypeExpr → Option (Option TypeExpr)) (entries : List MethodEntry) :
    ((retainEntries rule entries).map Prod.fst).Sublist (entries.map Prod.fst) := by
  induction entries with
  | nil => exact List.Sublist.refl _
  | cons entry rest ih =>
    simp only [retainEntries, List.filterMap_cons]
    cases rule entry.1 entry.2 with
    | none => exact List.Sublist.cons _ ih
    | some returns => exact List.Sublist.cons_cons _ ih

/-- Keep the methods that a rule keeps, with the return types that it gives them. -/
def retain (m : Methods) (rule : Signature → Option TypeExpr → Option (Option TypeExpr)) :
    Methods :=
  ⟨retainEntries rule m.entries, m.distinct.sublist (map_fst_retainEntries_sublist rule m.entries)⟩

/-- Keep the methods that pass a test. -/
def filter (m : Methods) (test : MethodEntry → Bool) : Methods :=
  ⟨m.entries.filter test, m.distinct.sublist (List.filter_sublist.map _)⟩

/-- Add entries one by one; the first signature that is present already is refused. -/
def extend (m : Methods) : List MethodEntry → Except Signature Methods
  | [] => .ok m
  | (key, returns) :: rest =>
    if h : key ∈ m.keys then .error key else extend (m.push key returns h) rest

/-- The methods of a list of entries, or the first signature that repeats an earlier one. -/
def ofEntries (entries : List MethodEntry) : Except Signature Methods := empty.extend entries

end Methods

end TypeSieve
