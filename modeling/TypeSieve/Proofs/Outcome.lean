import Mathlib.Data.List.Forall2

/-!
# Successful readings

Steps in sequence succeed exactly when each of them does, and a list is read exactly when every item
of it is.
-/

namespace TypeSieve

variable {ε α β : Type}

/-- Two steps succeed exactly when the first does and the second does with its result. -/
theorem bind_eq_ok_iff {x : Except ε α} {f : α → Except ε β} {result : β} :
    (x >>= f) = .ok result ↔ ∃ a, x = .ok a ∧ f a = .ok result := by
  cases x with
  | error e => simp [bind, Except.bind]
  | ok a => simp [bind, Except.bind]

/-- A changed result is the result of a success. -/
theorem map_eq_ok_iff {x : Except ε α} {f : α → β} {result : β} :
    x.map f = .ok result ↔ ∃ a, x = .ok a ∧ f a = result := by
  cases x with
  | error e => simp [Except.map]
  | ok a => simp [Except.map]

/-- Changing results changes no failure. -/
theorem map_eq_error_iff {x : Except ε α} {f : α → β} {e : ε} :
    x.map f = .error e ↔ x = .error e := by
  cases x with
  | error e => simp [Except.map]
  | ok a => simp [Except.map]

/-- What does not succeed fails. -/
theorem exists_error_iff {x : Except ε α} : (∃ e, x = .error e) ↔ ¬ ∃ a, x = .ok a := by
  cases x with
  | error e => simp
  | ok a => simp

/-- Changing errors changes no success. -/
theorem mapError_eq_ok_iff {δ : Type} {x : Except ε α} {f : ε → δ} {result : α} :
    x.mapError f = .ok result ↔ x = .ok result := by
  cases x with
  | error e => simp [Except.mapError]
  | ok a => simp [Except.mapError]

/-- A list is read exactly when its items are, one by one. -/
theorem mapM_eq_ok_iff (f : α → Except ε β) (xs : List α) (ys : List β) :
    xs.mapM f = .ok ys ↔ List.Forall₂ (fun x y => f x = .ok y) xs ys := by
  induction xs generalizing ys with
  | nil => cases ys <;> simp [pure, Except.pure]
  | cons x xs ih =>
    rw [List.mapM_cons]
    simp only [bind_eq_ok_iff, ih]
    constructor
    · intro h
      obtain ⟨y, hy, rest, hrest, heq⟩ := h
      obtain rfl : y :: rest = ys := Except.ok.inj heq
      exact List.Forall₂.cons hy hrest
    · intro h
      obtain ⟨y, rest, hy, hrest, rfl⟩ := List.forall₂_cons_left_iff.mp h
      exact ⟨y, hy, rest, hrest, rfl⟩

/-- Where some item of a list is not read, the list fails as the first such item does. -/
theorem mapM_eq_error_of_first {f : α → Except ε β} {xs : List α} (h : ∃ x ∈ xs, ∀ y, f x ≠ .ok y) :
    ∃ before x after e, xs = before ++ x :: after ∧ (∀ earlier ∈ before, ∃ y, f earlier = .ok y) ∧
      f x = .error e ∧ xs.mapM f = .error e := by
  induction xs with
  | nil => simp at h
  | cons x rest ih =>
    cases hx : f x with
    | error e =>
      refine ⟨[], x, rest, e, rfl, fun _ hmem => absurd hmem List.not_mem_nil, hx, ?_⟩
      rw [List.mapM_cons, hx]
      rfl
    | ok y =>
      have hrest : ∃ x ∈ rest, ∀ y, f x ≠ .ok y := by
        obtain ⟨x', hmem, hnone⟩ := h
        rcases List.mem_cons.mp hmem with rfl | hmem
        · exact absurd hx (hnone y)
        · exact ⟨x', hmem, hnone⟩
      obtain ⟨before, x', after, e, rfl, hbefore, hx', he⟩ := ih hrest
      refine ⟨x :: before, x', after, e, rfl, List.forall_mem_cons.mpr ⟨⟨y, hx⟩, hbefore⟩, hx', ?_⟩
      rw [List.mapM_cons, hx, he]
      rfl

/-- Where an item is read exactly if it passes a test, a list is read exactly if all of its items
do. -/
theorem mapM_eq_ok_iff_forall {f : α → Except ε β} {P : α → Prop} {g : α → β} {xs : List α}
    {ys : List β} (h : ∀ x ∈ xs, ∀ y, f x = .ok y ↔ P x ∧ y = g x) :
    xs.mapM f = .ok ys ↔ (∀ x ∈ xs, P x) ∧ ys = xs.map g := by
  rw [mapM_eq_ok_iff]
  induction xs generalizing ys with
  | nil => simp
  | cons x xs ih =>
    obtain ⟨hx, hxs⟩ := List.forall_mem_cons.mp h
    rw [List.forall₂_cons_left_iff]
    simp only [hx, ih hxs, List.forall_mem_cons, List.map_cons]
    constructor
    · rintro ⟨y, rest, ⟨hfirst, rfl⟩, ⟨hrest, rfl⟩, rfl⟩
      exact ⟨⟨hfirst, hrest⟩, rfl⟩
    · rintro ⟨⟨hfirst, hrest⟩, rfl⟩
      exact ⟨_, _, ⟨hfirst, rfl⟩, ⟨hrest, rfl⟩, rfl⟩

/-- Where two lists correspond, every item of the second has its counterpart in the first. -/
theorem exists_of_forall₂ {R : α → β → Prop} {xs : List α} {ys : List β} (h : List.Forall₂ R xs ys)
    {y : β} (hy : y ∈ ys) : ∃ x ∈ xs, R x y := by
  induction h with
  | nil => cases hy
  | @cons x first xs ys hfirst hrest ih =>
    rcases List.mem_cons.mp hy with rfl | hy
    · exact ⟨x, List.mem_cons_self .., hfirst⟩
    · obtain ⟨x', hx', heq⟩ := ih hy
      exact ⟨x', List.mem_cons_of_mem _ hx', heq⟩

/-- What a list is read as comes from its items. -/
theorem exists_of_mapM_eq_ok {f : α → Except ε β} {xs : List α} {ys : List β}
    (h : xs.mapM f = .ok ys) {y : β} (hy : y ∈ ys) : ∃ x ∈ xs, f x = .ok y :=
  exists_of_forall₂ ((mapM_eq_ok_iff f xs ys).mp h) hy

/-- A list is read exactly if each of its items is. -/
theorem exists_mapM_eq_ok_iff (f : α → Except ε β) (xs : List α) :
    (∃ ys, xs.mapM f = .ok ys) ↔ ∀ x ∈ xs, ∃ y, f x = .ok y := by
  simp only [mapM_eq_ok_iff]
  induction xs with
  | nil => simp
  | cons x xs ih =>
    simp only [List.forall₂_cons_left_iff, List.forall_mem_cons, ← ih]
    constructor
    · rintro ⟨_, y, ys, hy, hys, rfl⟩
      exact ⟨⟨y, hy⟩, ys, hys⟩
    · rintro ⟨⟨y, hy⟩, ys, hys⟩
      exact ⟨_, y, ys, hy, hys, rfl⟩

/-- A list fails exactly as an item does before which every item is read. -/
theorem mapM_eq_error_iff (f : α → Except ε β) (xs : List α) (e : ε) :
    xs.mapM f = .error e ↔ ∃ before x after, xs = before ++ x :: after ∧
      (∀ earlier ∈ before, ∃ y, f earlier = .ok y) ∧ f x = .error e := by
  constructor
  · intro herror
    by_cases hnone : ∃ x ∈ xs, ∀ y, f x ≠ .ok y
    · obtain ⟨before, x, after, e', hsplit, hbefore, hx, herror'⟩ := mapM_eq_error_of_first hnone
      obtain rfl := Except.error.inj (herror.symm.trans herror')
      exact ⟨before, x, after, hsplit, hbefore, hx⟩
    · push Not at hnone
      obtain ⟨ys, hys⟩ := (exists_mapM_eq_ok_iff f _).mpr hnone
      cases herror.symm.trans hys
  · rintro ⟨before, x, after, rfl, hbefore, hx⟩
    obtain ⟨ys, hys⟩ := (exists_mapM_eq_ok_iff f _).mpr hbefore
    rw [List.mapM_append, hys, List.mapM_cons, hx]
    rfl

/-- Where each item gives what is made of its reading, the items give what is made of the
readings. -/
theorem map_eq_of_mapM_eq_ok {γ : Type} {f : α → Except ε β} {g : β → γ} {g' : α → γ} {xs : List α}
    {ys : List β} (hread : xs.mapM f = .ok ys) (h : ∀ x ∈ xs, ∀ y, f x = .ok y → g y = g' x) :
    ys.map g = xs.map g' := by
  rw [mapM_eq_ok_iff] at hread
  induction hread with
  | nil => rfl
  | cons hfirst _ ih =>
    obtain ⟨hx, hxs⟩ := List.forall_mem_cons.mp h
    rw [List.map_cons, List.map_cons, hx _ hfirst, ih hxs]

/-- Two lists are taken to the same list exactly if their items are one by one. -/
theorem map_eq_map_iff_forall₂ {f : α → β} {R : α → α → Prop} {xs ys : List α}
    (h : ∀ x ∈ xs, ∀ y ∈ ys, f x = f y ↔ R x y) : xs.map f = ys.map f ↔ List.Forall₂ R xs ys := by
  induction xs generalizing ys with
  | nil => cases ys <;> simp
  | cons x xs ih =>
    cases ys with
    | nil => simp
    | cons y ys =>
      simp only [List.forall_mem_cons] at h
      obtain ⟨⟨hfirst, -⟩, hrest⟩ := h
      rw [List.map_cons, List.map_cons, List.cons.injEq, List.forall₂_cons, hfirst,
        ih fun x' hx' => (hrest x' hx').2]

/-- A list is read item by item from what is written for it. -/
theorem mapM_map_eq_ok_map {γ : Type} {f : β → Except ε γ} {write : α → β} {g : α → γ} {xs : List α}
    (h : ∀ x ∈ xs, f (write x) = .ok (g x)) : (xs.map write).mapM f = .ok (xs.map g) := by
  rw [mapM_eq_ok_iff, List.forall₂_map_left_iff, List.forall₂_map_right_iff, List.forall₂_same]
  exact h

/-- A list is read back if each of its items is. -/
theorem mapM_map_eq_ok {f : β → Except ε α} {write : α → β} {xs : List α}
    (h : ∀ x ∈ xs, f (write x) = .ok x) : (xs.map write).mapM f = .ok xs := by
  simpa using mapM_map_eq_ok_map h

/-- A list has a value exactly when its items have, one by one. -/
theorem mapM_eq_some_iff (f : α → Option β) (xs : List α) (ys : List β) :
    xs.mapM f = some ys ↔ List.Forall₂ (fun x y => f x = some y) xs ys := by
  induction xs generalizing ys with
  | nil => cases ys <;> simp [pure]
  | cons x xs ih =>
    rw [List.mapM_cons]
    simp only [Option.bind_eq_bind, Option.bind_eq_some_iff, ih, List.forall₂_cons_left_iff]
    constructor
    · intro h
      obtain ⟨y, hy, rest, hrest, heq⟩ := h
      exact ⟨y, rest, hy, hrest, (Option.some.inj heq).symm⟩
    · intro h
      obtain ⟨y, rest, hy, hrest, rfl⟩ := h
      exact ⟨y, hy, rest, hrest, rfl⟩

/-- A list is given item by item. -/
theorem mapM_eq_some {f : α → Option β} {g : α → β} {xs : List α} (h : ∀ x ∈ xs, f x = some (g x)) :
    xs.mapM f = some (xs.map g) := by
  rw [mapM_eq_some_iff, List.forall₂_map_right_iff, List.forall₂_same]
  exact h

end TypeSieve
