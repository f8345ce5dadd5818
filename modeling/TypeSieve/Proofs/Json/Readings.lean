import TypeSieve.Proofs.Json.ReadBack
import TypeSieve.Proofs.Json.Tokens

/-!
# What readers make of texts

A value that is read from a text has the members of its objects in key order, its integers fit 64
bits, and it nests no deeper than texts may. So it is plain unless some number in it is a binary64
number.
-/

namespace TypeSieve.Json

variable {depth : Nat}

mutual

/-- A value without binary64 numbers. -/
def Integral : Json → Prop
  | .null | .bool _ | .integer _ | .string _ => True
  | .double _ => False
  | .array items => IntegralItems items
  | .object members => IntegralMembers members

/-- All items of a list are without binary64 numbers. -/
def IntegralItems : List Json → Prop
  | [] => True
  | item :: rest => Integral item ∧ IntegralItems rest

/-- The values of all members of a list are without binary64 numbers. -/
def IntegralMembers : List (String × Json) → Prop
  | [] => True
  | (_, value) :: rest => Integral value ∧ IntegralMembers rest

end

/-- An array is without binary64 numbers if its items are. -/
theorem integral_array_iff (items : List Json) :
    (Json.array items).Integral ↔ ∀ item ∈ items, item.Integral := by
  rw [Integral]
  induction items with
  | nil => simp [IntegralItems]
  | cons item rest ih => simp [IntegralItems, ih]

/-- An object is without binary64 numbers if its values are. -/
theorem integral_object_iff (members : List (String × Json)) :
    (Json.object members).Integral ↔ ∀ member ∈ members, member.2.Integral := by
  rw [Integral]
  induction members with
  | nil => simp [IntegralMembers]
  | cons member rest ih => simp [IntegralMembers, ih]

/-- Two readings of the same members have the same keys, and the same is made of their values if
this holds of every member. -/
theorem Form.map_eq_of_mapM_readMember {α β γ : Type} {read : Form → Option α}
    {read' : Form → Option β} {f : α → γ} {g : β → γ} {members : List (List Piece × Form)}
    {values : List (String × α)} {others : List (String × β)}
    (hvalues : members.mapM (readMember read) = some values)
    (hothers : members.mapM (readMember read') = some others)
    (h : ∀ part a b, read part = some a → read' part = some b → f a = g b) :
    values.map (fun entry => (entry.1, f entry.2)) = others.map fun entry =>
      (entry.1, g entry.2) := by
  rw [mapM_eq_some_iff] at hvalues hothers
  induction hvalues generalizing others with
  | nil =>
    cases hothers
    rfl
  | cons hfirst _ ih =>
    obtain ⟨other, rest, hother, hrest, rfl⟩ := List.forall₂_cons_left_iff.mp hothers
    obtain ⟨hkey, ha⟩ := readMember_eq_some_iff.mp hfirst
    obtain ⟨hkey', hb⟩ := readMember_eq_some_iff.mp hother
    rw [List.map_cons, List.map_cons, ih hrest, h _ _ _ ha hb,
      Option.some.inj (hkey.symm.trans hkey')]

/-- The items of an array are read one by one. -/
theorem Form.values_eq_mapM (depth : Nat) (items : List Form) :
    Form.values depth items = items.mapM (Form.value depth) := by
  induction items with
  | nil => rfl
  | cons item rest ih => rw [Form.values, List.mapM_cons, ih]

/-- The members of an object are read one by one. -/
theorem Form.memberValues_eq_mapM (depth : Nat) (members : List (List Piece × Form)) :
    Form.memberValues depth members = members.mapM (readMember (Form.value depth)) := by
  induction members with
  | nil => rfl
  | cons member rest ih =>
    rw [Form.memberValues, List.mapM_cons, ih, readMember]
    simp [Option.bind_assoc]

/-- A numeral has as its value an integer of 64 bits or a binary64 number. -/
theorem Numeral.value_cases {n : Numeral} {value : Json} (h : n.value = some value) :
    (∃ i, value = .integer i ∧ InWord i) ∨ ∃ x, value = .double x := by
  unfold Numeral.value at h
  dsimp only at h
  split at h
  · next hnatural =>
    refine .inl ⟨_, (Option.some.inj h).symm, ?_⟩
    have hmax := hnatural.2.2.2
    simp only [InWord]
    omega
  · split at h
    · next hnegative =>
      refine .inl ⟨_, (Option.some.inj h).symm, ?_⟩
      have hmin := hnegative.2.2.2.2
      simp only [InWord]
      omega
    · obtain ⟨x, -, rfl⟩ := Option.map_eq_some_iff.mp h
      exact .inr ⟨_, rfl⟩

/-- A value that is read is held in key order and is exact if it has no binary64 numbers. -/
theorem Form.reading {form : Form} {value : Json} (h : form.value depth = some value) :
    value.Ordered ∧ (value.Integral → value.Exact depth) := by
  induction form using Form.ind generalizing depth value with
  | null =>
    obtain rfl := Option.some.inj h
    exact ⟨trivial, fun _ => trivial⟩
  | bool b =>
    obtain rfl := Option.some.inj h
    exact ⟨trivial, fun _ => trivial⟩
  | numeral n =>
    rcases Numeral.value_cases h with ⟨i, rfl, hword⟩ | ⟨x, rfl⟩
    · exact ⟨trivial, fun _ => hword⟩
    · exact ⟨trivial, fun hintegral => hintegral.elim⟩
  | text pieces =>
    obtain ⟨text, -, rfl⟩ := Option.map_eq_some_iff.mp h
    exact ⟨trivial, fun _ => trivial⟩
  | array items ih =>
    cases depth with
    | zero => cases h
    | succ inner =>
      obtain ⟨values, hvalues, rfl⟩ := Option.map_eq_some_iff.mp h
      rw [Form.values_eq_mapM, mapM_eq_some_iff] at hvalues
      rw [ordered_array_iff, integral_array_iff, exact_array_iff]
      constructor
      · intro item hitem
        obtain ⟨part, hpart, hread⟩ := exists_of_forall₂ hvalues hitem
        exact (ih part hpart hread).1
      · refine fun hintegral => ⟨inner, rfl, fun item hitem => ?_⟩
        obtain ⟨part, hpart, hread⟩ := exists_of_forall₂ hvalues hitem
        exact (ih part hpart hread).2 (hintegral item hitem)
  | object members ih =>
    cases depth with
    | zero => cases h
    | succ inner =>
      obtain ⟨entries, hentries, rfl⟩ := Option.map_eq_some_iff.mp h
      rw [Form.memberValues_eq_mapM, mapM_eq_some_iff] at hentries
      have hread : ∀ entry ∈ canonicalEntries entries, ∃ member ∈ members,
          member.2.value inner = some entry.2 := by
        intro entry hentry
        obtain ⟨member, hmember, hread⟩ :=
          exists_of_forall₂ hentries (mem_of_mem_canonicalEntries hentry)
        exact ⟨member, hmember, (Form.readMember_eq_some_iff.mp hread).2⟩
      rw [ordered_object_iff, integral_object_iff, exact_object_iff]
      refine ⟨⟨ascending_canonicalEntries entries, fun entry hentry => ?_⟩, fun hintegral => ?_⟩
      · obtain ⟨member, hmember, hvalue⟩ := hread entry hentry
        exact (ih member hmember hvalue).1
      · refine ⟨inner, rfl, fun entry hentry => ?_⟩
        obtain ⟨member, hmember, hvalue⟩ := hread entry hentry
        exact (ih member hmember hvalue).2 (hintegral entry hentry)

/-- A text without binary64 numbers is read as a plain value. -/
theorem plain_of_parse? {text : String} {value : Json} (h : parse? text = some value)
    (hintegral : value.Integral) : value.Plain depthLimit := by
  obtain ⟨form, -, hvalue⟩ := Option.bind_eq_some_iff.mp h
  obtain ⟨hordered, hexact⟩ := Form.reading hvalue
  exact ⟨hexact hintegral, hordered⟩

end TypeSieve.Json
