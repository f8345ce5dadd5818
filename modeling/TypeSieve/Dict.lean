/-!
# Dictionaries in key order

A dictionary holds its entries in strictly ascending key order, so two dictionaries with the
same entries are equal. Keys are compared by code points. Inserting a key that is present
replaces its value, hence reading a list of entries keeps the last value of each key.
-/

namespace TypeSieve

variable {α β : Type}

/-- Strictly ascending keys. -/
def Ascending (entries : List (String × α)) : Prop :=
  entries.Pairwise fun a b => a.1 < b.1

instance (entries : List (String × α)) : Decidable (Ascending entries) :=
  inferInstanceAs (Decidable (List.Pairwise _ _))

/-- Put an entry at its place in key order, replacing the value of an equal key. -/
def insertEntry (key : String) (value : α) : List (String × α) → List (String × α)
  | [] => [(key, value)]
  | (k, v) :: rest =>
    if key < k then (key, value) :: (k, v) :: rest
    else if k < key then (k, v) :: insertEntry key value rest
    else (key, value) :: rest

/-- The entries in key order, each key once with its last value. -/
def canonicalEntries (entries : List (String × α)) : List (String × α) :=
  entries.foldl (fun sorted entry => insertEntry entry.1 entry.2 sorted) []

/-- The value of the first entry with the key. -/
def findEntry (key : String) : List (String × α) → Option α
  | [] => none
  | (k, v) :: rest => if k = key then some v else findEntry key rest

/-- Inserting adds no entry but the given one. -/
theorem mem_insertEntry {key : String} {value : α} {entry : String × α}
    {entries : List (String × α)} (h : entry ∈ insertEntry key value entries) :
    entry = (key, value) ∨ entry ∈ entries := by
  induction entries with
  | nil => simpa [insertEntry] using h
  | cons head rest ih =>
    obtain ⟨k, v⟩ := head
    simp only [insertEntry] at h
    split at h
    · simpa using h
    · split at h
      · rcases List.mem_cons.mp h with rfl | h
        · exact Or.inr (List.mem_cons_self ..)
        · rcases ih h with h | h
          · exact Or.inl h
          · exact Or.inr (List.mem_cons_of_mem _ h)
      · rcases List.mem_cons.mp h with rfl | h
        · exact Or.inl rfl
        · exact Or.inr (List.mem_cons_of_mem _ h)

/-- Neither of two keys is below the other only if they are equal. -/
theorem key_eq_of_not_lt {a b : String} (hab : ¬ a < b) (hba : ¬ b < a) : a = b :=
  String.le_antisymm (String.not_lt.mp hba) (String.not_lt.mp hab)

/-- Inserting keeps the keys strictly ascending. -/
theorem ascending_insertEntry {key : String} {value : α} {entries : List (String × α)}
    (h : Ascending entries) : Ascending (insertEntry key value entries) := by
  induction entries with
  | nil => exact List.pairwise_singleton _ _
  | cons head rest ih =>
    obtain ⟨k, v⟩ := head
    obtain ⟨first, tail⟩ := List.pairwise_cons.mp h
    simp only [insertEntry]
    split
    · next below =>
      refine List.pairwise_cons.mpr ⟨?_, h⟩
      intro entry member
      rcases List.mem_cons.mp member with rfl | member
      · exact below
      · exact String.lt_trans below (first entry member)
    · next notBelow =>
      split
      · next above =>
        refine List.pairwise_cons.mpr ⟨?_, ih tail⟩
        intro entry member
        rcases mem_insertEntry member with rfl | member
        · exact above
        · exact first entry member
      · next notAbove =>
        have same : key = k := key_eq_of_not_lt notBelow notAbove
        subst same
        exact List.pairwise_cons.mpr ⟨first, tail⟩

/-- Canonical entries have strictly ascending keys. -/
theorem ascending_canonicalEntries (entries : List (String × α)) :
    Ascending (canonicalEntries entries) := by
  suffices ∀ sorted, Ascending sorted →
      Ascending (entries.foldl (fun sorted entry => insertEntry entry.1 entry.2 sorted) sorted) from
    this [] List.Pairwise.nil
  induction entries with
  | nil => exact fun _ h => h
  | cons entry rest ih => exact fun sorted h => ih _ (ascending_insertEntry h)

/-- A finite map from texts, its entries in strictly ascending key order. -/
@[ext] structure Dict (α : Type) where
  entries : List (String × α)
  ascending : Ascending entries

namespace Dict

instance [DecidableEq α] : DecidableEq (Dict α) := fun a b =>
  decidable_of_iff (a.entries = b.entries) ⟨Dict.ext, congrArg entries⟩

/-- The dictionary without entries. -/
def empty : Dict α := ⟨[], List.Pairwise.nil⟩

/-- The dictionary of the entries, the last value of each key. -/
def ofList (entries : List (String × α)) : Dict α :=
  ⟨canonicalEntries entries, ascending_canonicalEntries entries⟩

/-- Set the value of a key. -/
def insert (d : Dict α) (key : String) (value : α) : Dict α :=
  ⟨insertEntry key value d.entries, ascending_insertEntry d.ascending⟩

/-- The value of a key. -/
def get? (d : Dict α) (key : String) : Option α := findEntry key d.entries

/-- The keys in ascending order. -/
def keys (d : Dict α) : List String := d.entries.map (·.1)

/-- The values in key order. -/
def values (d : Dict α) : List α := d.entries.map (·.2)

/-- The dictionary has no entry. -/
def isEmpty (d : Dict α) : Bool := d.entries.isEmpty

/-- Keep the entries that pass a test. -/
def filter (d : Dict α) (test : String → α → Bool) : Dict α :=
  ⟨d.entries.filter fun entry => test entry.1 entry.2, List.Pairwise.filter _ d.ascending⟩

/-- Change every value, knowing its key. -/
def map (d : Dict α) (f : String → α → β) : Dict β :=
  ⟨d.entries.map fun entry => (entry.1, f entry.1 entry.2), by
    have h := d.ascending
    unfold Ascending at h ⊢
    exact List.pairwise_map.mpr h⟩

/-- Changing the values keeps the keys. -/
@[simp] theorem keys_map (d : Dict α) (f : String → α → β) : (d.map f).keys = d.keys := by
  simp [keys, map, Function.comp_def]

end Dict

end TypeSieve
