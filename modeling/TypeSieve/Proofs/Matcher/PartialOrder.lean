import TypeSieve.Proofs.Matcher.Pairs

/-!
# Exact matches order the types

Patterns and candidates are written in the same way, so an exact match relates types with types. The
relation is a partial order with the wildcard below all others: a type that matches another says
less than it. Saying less at one place of a pattern, or more behind the items of one tuple of a
candidate, is a step of this order, and keeps a match.
-/

namespace TypeSieve.Matcher

/-- A type matches another one exactly. -/
def Matches (pattern candidate : TypeExpr) : Prop :=
  exact pattern candidate = .matched

/-- Two types differ at one place, in the whole or somewhere inside, where they are related. -/
inductive Within (R : TypeExpr → TypeExpr → Prop) : TypeExpr → TypeExpr → Prop
  | here {a b : TypeExpr} (hrelated : R a b) : Within R a b
  | item (before after : List TypeExpr) {a b : TypeExpr} (hinside : Within R a b) :
    Within R (.tuple (before ++ a :: after)) (.tuple (before ++ b :: after))

/-- A tuple with more items behind those of another. -/
inductive Appended : TypeExpr → TypeExpr → Prop
  | intro (items more : List TypeExpr) : Appended (.tuple items) (.tuple (items ++ more))

/-- Only the wildcard and the name itself match a name. -/
theorem eq_of_exact_leaf {pattern : TypeExpr} {name : String}
    (h : exact pattern (.leaf name) = .matched) : pattern = .leaf wildcard ∨ pattern = .leaf name :=
  eq_of_exact_atom (e := .leaf name) (by simp [TypeExpr.atoms]) h

/-- Only the wildcard and the literal itself match a literal. -/
theorem eq_of_exact_literal {pattern : TypeExpr} {text : String}
    (h : exact pattern (.literal text) = .matched) :
    pattern = .leaf wildcard ∨ pattern = .literal text :=
  eq_of_exact_atom (e := .literal text) (by simp [TypeExpr.atoms]) h

/-- Only the wildcard matches itself. -/
theorem exact_wildcard_right (pattern : TypeExpr) :
    exact pattern (.leaf wildcard) = .matched ↔ pattern = .leaf wildcard := by
  constructor
  · intro h
    exact (eq_of_exact_leaf h).elim id id
  · rintro rfl
    exact exact_self _

/-- Items that match each other are equal if those that do so are one by one. -/
theorem exactItems_antisymm {parts items : List TypeExpr}
    (hantisymm : ∀ part ∈ parts, ∀ item,
      exact part item = .matched → exact item part = .matched → part = item)
    (hforth : exactItems parts items = .matched) (hback : exactItems items parts = .matched) :
    parts = items := by
  induction parts generalizing items with
  | nil =>
    cases items with
    | nil => rfl
    | cons item items => cases hback
  | cons part parts ih =>
    obtain ⟨hpart, hparts⟩ := List.forall_mem_cons.mp hantisymm
    cases items with
    | nil => cases hforth
    | cons item items =>
      rw [exactItems, both_eq_matched_iff] at hforth hback
      rw [hpart item hforth.1 hback.1, ih hparts hforth.2 hback.2]

/-- Types that match each other are equal. -/
theorem exact_antisymm {a b : TypeExpr} (hforth : exact a b = .matched)
    (hback : exact b a = .matched) : a = b := by
  -- Where one side is an atom, the other is this atom, or it is the wildcard and so is the atom.
  induction a using TypeExpr.ind generalizing b with
  | leaf name =>
    rcases eq_of_exact_leaf hback with rfl | rfl
    · exact (exact_wildcard_right _).mp hforth
    · rfl
  | literal text =>
    rcases eq_of_exact_literal hback with rfl | rfl
    · exact (exact_wildcard_right _).mp hforth
    · rfl
  | tuple parts ih =>
    cases b with
    | leaf name => rcases eq_of_exact_leaf hforth with h | h <;> cases h
    | literal text => rcases eq_of_exact_literal hforth with h | h <;> cases h
    | tuple items =>
      rw [exact_tuple] at hforth hback
      rw [exactItems_antisymm (fun part hpart item => ih part hpart) hforth hback]

/-- A tuple matches the one that has a further type matched by one of its items in the place of this
item. -/
theorem exact_tuple_set {a b : TypeExpr} (h : exact a b = .matched) (before after : List TypeExpr) :
    exact (.tuple (before ++ a :: after)) (.tuple (before ++ b :: after)) = .matched := by
  have hsame (items : List TypeExpr) :
      List.Forall₂ (fun part item => exact part item = .matched) items items :=
    List.forall₂_same.mpr fun item _ => exact_self item
  rw [exact_tuple, exactItems_eq_matched_iff]
  exact ⟨before ++ b :: after, [], (List.append_nil _).symm,
    List.rel_append (hsame before) (.cons h (hsame after))⟩

/-- A change at one place that is a match there is a match of the whole. -/
theorem exact_of_within {R : TypeExpr → TypeExpr → Prop}
    (hR : ∀ {a b}, R a b → exact a b = .matched) {a b : TypeExpr} (h : Within R a b) :
    exact a b = .matched := by
  induction h with
  | here hrelated => exact hR hrelated
  | item before after _ ih => exact exact_tuple_set ih before after

/-- A tuple matches those with more items behind its own. -/
theorem exact_of_appended {a b : TypeExpr} (h : Appended a b) : exact a b = .matched := by
  obtain ⟨items, more⟩ := h
  rw [exact_tuple, exactItems_eq_matched_iff]
  exact ⟨items, more, rfl, List.forall₂_same.mpr fun item _ => exact_self item⟩

/-- Exact matches are a partial order on the types. The wildcard matches every type and is matched
by nothing else. A pattern goes on to match if a type that matches the former one is put at some
place in it, and a candidate goes on to be matched if items are appended to a tuple somewhere in
it. -/
theorem matches_partial_order :
    (∀ p, Matches p p) ∧
    (∀ p q c, Matches p q → Matches q c → Matches p c) ∧
    (∀ p q, Matches p q → Matches q p → p = q) ∧
    (∀ c, Matches (.leaf wildcard) c) ∧
    (∀ p, Matches p (.leaf wildcard) ↔ p = .leaf wildcard) ∧
    (∀ p p' c, Within Matches p' p → Matches p c → Matches p' c) ∧
    (∀ p c c', Within Appended c c' → Matches p c → Matches p c') := by
  refine ⟨exact_self, fun p q c => exact_trans, fun p q => exact_antisymm, exact_wildcard,
    exact_wildcard_right, ?_, ?_⟩
  · intro p p' c hreplaced hmatch
    exact exact_trans (exact_of_within id hreplaced) hmatch
  · intro p c c' happended hmatch
    exact exact_trans hmatch (exact_of_within exact_of_appended happended)

/-- A pattern for vectors of any item. -/
def anyVector : TypeExpr := .tuple [.leaf "vector", .leaf wildcard]

/-- A pattern for constant vectors whose item is a composite type. -/
def constVector : TypeExpr := .tuple [.leaf "vector", .tuple [], .leaf "const"]

/-- The type of constant vectors of maps, with what is said about the maps. -/
def mapVector (arguments : List TypeExpr) : TypeExpr :=
  .tuple [.leaf "vector", .tuple (.leaf "map" :: arguments), .leaf "const", .literal "3"]

/-- A pattern with an empty tuple stands between one with a wildcard and a type, and does not match
back. Matches are kept by one more wildcard in the pattern and by one more item deep in the type. -/
theorem matches_partial_order_vector :
    (Matches anyVector constVector ∧ Matches constVector (mapVector [.leaf "int32"]) ∧
      Matches anyVector (mapVector [.leaf "int32"])) ∧
    ¬ Matches constVector anyVector ∧
    (Within Matches (.tuple [.leaf wildcard, .leaf wildcard]) anyVector ∧
      Matches (.tuple [.leaf wildcard, .leaf wildcard]) constVector) ∧
    Within Appended (mapVector [.leaf "int32"]) (mapVector [.leaf "int32", .leaf "float64"]) ∧
      Matches constVector (mapVector [.leaf "int32", .leaf "float64"]) := by
  obtain ⟨-, htrans, hantisymm, hwildcard, -, hreplace, happend⟩ := matches_partial_order
  have hany : Matches anyVector constVector := by
    unfold Matches
    decide +kernel
  have hconst : Matches constVector (mapVector [.leaf "int32"]) := by
    unfold Matches
    decide +kernel
  have hreplaced : Within Matches (.tuple [.leaf wildcard, .leaf wildcard]) anyVector :=
    .item [] [.leaf wildcard] (.here (hwildcard (.leaf "vector")))
  have happended :
      Within Appended (mapVector [.leaf "int32"]) (mapVector [.leaf "int32", .leaf "float64"]) :=
    .item [.leaf "vector"] [.leaf "const", .literal "3"]
      (.here (.intro [.leaf "map", .leaf "int32"] [.leaf "float64"]))
  refine ⟨⟨hany, hconst, htrans _ _ _ hany hconst⟩, ?_, ⟨hreplaced, hreplace _ _ _ hreplaced hany⟩,
    happended, happend _ _ _ happended hconst⟩
  intro hback
  cases hantisymm _ _ hback hany

end TypeSieve.Matcher
