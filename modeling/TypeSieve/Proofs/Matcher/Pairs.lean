import TypeSieve.Proofs.Matcher.Covering

/-!
# The pairs that decide an exact match

An exact match compares the pattern with the candidate, and the items of two tuples at equal places.
A pair that clashes refutes the match wherever it stands. Without such a pair, one that cannot be
evaluated leaves the match open, and otherwise the pattern matches. So the pairs may be visited in
any order, and it makes no difference whether equal tuples are recognised before their items are
visited.
-/

namespace TypeSieve.Matcher

/-- The parts that are compared: the pattern with the candidate, and the items at the same place of
two tuples that are compared, unless the candidate is the shorter one. -/
inductive Aligned (pattern candidate : TypeExpr) : TypeExpr → TypeExpr → Prop
  | whole : Aligned pattern candidate pattern candidate
  | item {parts items : List TypeExpr} {index : Nat} {part item : TypeExpr}
    (htuples : Aligned pattern candidate (.tuple parts) (.tuple items))
    (hlength : parts.length ≤ items.length) (hpart : parts[index]? = some part)
    (hitem : items[index]? = some item) : Aligned pattern candidate part item

/-- The two cannot match: an atom besides the wildcard and anything else, a tuple and a name, or a
tuple and a shorter one. -/
def Clash : TypeExpr → TypeExpr → Prop
  | .leaf name, candidate => name ≠ wildcard ∧ .leaf name ≠ candidate
  | .literal text, candidate => .literal text ≠ candidate
  | .tuple _, .leaf _ => True
  | .tuple _, .literal _ => False
  | .tuple parts, .tuple items => items.length < parts.length

/-- The two cannot be evaluated: a tuple and a literal. -/
def Undecidable : TypeExpr → TypeExpr → Prop
  | .tuple _, .literal _ => True
  | _, _ => False

/-- Some pair that is compared has a property. -/
def SomePair (P : TypeExpr → TypeExpr → Prop) (pattern candidate : TypeExpr) : Prop :=
  ∃ part item, Aligned pattern candidate part item ∧ P part item

mutual

/-- The ways to evaluate an exact match. Two tuples that are equal match at once, or their items are
visited, and the pairs of their items are visited in some order. -/
inductive Evaluates : TypeExpr → TypeExpr → Outcome → Prop
  | anything (candidate : TypeExpr) : Evaluates (.leaf wildcard) candidate .matched
  | equal (e : TypeExpr) : Evaluates e e .matched
  | atom {pattern candidate : TypeExpr} (hatom : ∀ parts, pattern ≠ .tuple parts)
    (hwild : pattern ≠ .leaf wildcard)
    (hequal : pattern ≠ candidate) : Evaluates pattern candidate .unmatched
  | leaf (parts : List TypeExpr) (name : String) : Evaluates (.tuple parts) (.leaf name) .unmatched
  | literal (parts : List TypeExpr) (text : String) :
      Evaluates (.tuple parts) (.literal text) .incompatible
  | short {parts items : List TypeExpr} (hshort : items.length < parts.length) :
    Evaluates (.tuple parts) (.tuple items) .unmatched
  | items {parts items : List TypeExpr} {order : List (TypeExpr × TypeExpr)} {outcome : Outcome}
    (hlength : parts.length ≤ items.length) (horder : order.Perm (parts.zip items))
    (hvisits : Visits false order outcome) : Evaluates (.tuple parts) (.tuple items) outcome

/-- The ways to visit pairs one after the other. The first that does not match decides, and one that
cannot be evaluated is remembered to the end. -/
inductive Visits : Bool → List (TypeExpr × TypeExpr) → Outcome → Prop
  | done (pending : Bool) : Visits pending [] (if pending then .incompatible else .matched)
  | matched {pending : Bool} {pair : TypeExpr × TypeExpr} {rest : List (TypeExpr × TypeExpr)}
    {outcome : Outcome} (hpair : Evaluates pair.1 pair.2 .matched)
    (hrest : Visits pending rest outcome) :
    Visits pending (pair :: rest) outcome
  | unmatched {pending : Bool} {pair : TypeExpr × TypeExpr} {rest : List (TypeExpr × TypeExpr)}
    (hpair : Evaluates pair.1 pair.2 .unmatched) : Visits pending (pair :: rest) .unmatched
  | incompatible {pending : Bool} {pair : TypeExpr × TypeExpr} {rest : List (TypeExpr × TypeExpr)}
    {outcome : Outcome} (hpair : Evaluates pair.1 pair.2 .incompatible)
    (hrest : Visits true rest outcome) :
    Visits pending (pair :: rest) outcome

end

/-- Visit pairs one after the other with the outcomes of their exact matches. -/
def visit (pending : Bool) : List (TypeExpr × TypeExpr) → Outcome
  | [] => if pending then .incompatible else .matched
  | pair :: rest =>
    match exact pair.1 pair.2 with
    | .matched => visit pending rest
    | .unmatched => .unmatched
    | .incompatible => visit true rest

/-- A name is compared as a whole. -/
theorem exact_leaf (name : String) (candidate : TypeExpr) :
    exact (.leaf name) candidate =
      if name = wildcard ∨ .leaf name = candidate then .matched else .unmatched := by
  simp [exact.eq_def]

/-- A literal is compared as a whole. -/
theorem exact_literal (text : String) (candidate : TypeExpr) :
    exact (.literal text) candidate =
      if .literal text = candidate then .matched else .unmatched := by
  simp [exact.eq_def]

/-- Tuples are compared item by item, equal ones as well. -/
theorem exact_tuple (parts items : List TypeExpr) :
    exact (.tuple parts) (.tuple items) = exactItems parts items := by
  rw [exact.eq_def]
  split
  · next hequal =>
    obtain rfl : parts = items := by simpa using hequal
    refine ((exactItems_eq_matched_iff _ _).mpr ⟨parts, [], (List.append_nil _).symm, ?_⟩).symm
    exact List.forall₂_same.mpr fun part _ => exact_self part
  · rfl

/-- Two outcomes are equal if they agree on what is no match and on what is one. -/
theorem outcome_eq {a b : Outcome} (hunmatched : a = .unmatched ↔ b = .unmatched)
    (hmatched : a = .matched ↔ b = .matched) : a = b := by
  cases a <;> cases b <;> simp_all

/-- A visit ends without a match exactly if some pair does not match. -/
theorem visit_eq_unmatched_iff (pending : Bool) (pairs : List (TypeExpr × TypeExpr)) :
    visit pending pairs = .unmatched ↔ ∃ pair ∈ pairs, exact pair.1 pair.2 = .unmatched := by
  induction pairs generalizing pending with
  | nil => cases pending <;> simp [visit]
  | cons pair rest ih => cases hpair : exact pair.1 pair.2 <;> simp [visit, hpair, ih]

/-- A visit ends with a match exactly if every pair matches and nothing was remembered before. -/
theorem visit_eq_matched_iff (pending : Bool) (pairs : List (TypeExpr × TypeExpr)) :
    visit pending pairs = .matched ↔
      pending = false ∧ ∀ pair ∈ pairs, exact pair.1 pair.2 = .matched := by
  induction pairs generalizing pending with
  | nil => cases pending <;> simp [visit]
  | cons pair rest ih => cases hpair : exact pair.1 pair.2 <;> simp [visit, hpair, ih]

/-- The order of a visit makes no difference. -/
theorem visit_perm {order pairs : List (TypeExpr × TypeExpr)} (h : order.Perm pairs)
    (pending : Bool) : visit pending order = visit pending pairs := by
  apply outcome_eq
  · simp only [visit_eq_unmatched_iff, h.mem_iff]
  · simp only [visit_eq_matched_iff, h.mem_iff]

/-- What was remembered before a visit counts beside its outcome. -/
theorem visit_true (pairs : List (TypeExpr × TypeExpr)) :
    visit true pairs = Outcome.both .incompatible (visit false pairs) := by
  induction pairs with
  | nil => rfl
  | cons pair rest ih =>
    rw [visit, visit]
    cases exact pair.1 pair.2 with
    | matched => exact ih
    | unmatched => rfl
    | incompatible => cases hrest : visit false rest <;> simp [ih, hrest, Outcome.both]

/-- The items of a pattern are visited with those of a candidate that is long enough. -/
theorem exactItems_eq_visit {parts items : List TypeExpr} (hlength : parts.length ≤ items.length) :
    exactItems parts items = visit false (parts.zip items) := by
  induction parts generalizing items with
  | nil => rfl
  | cons part parts ih =>
    cases items with
    | nil => simp at hlength
    | cons item items =>
      rw [exactItems, ih (Nat.le_of_succ_le_succ hlength), List.zip_cons_cons, visit]
      cases exact part item with
      | matched => cases visit false (parts.zip items) <;> rfl
      | unmatched => rfl
      -- The rest is visited with the pair remembered, which only a pair that does not match
      -- outweighs.
      | incompatible => exact (visit_true _).symm

/-- A candidate with too few items does not match. -/
theorem exactItems_of_short {parts items : List TypeExpr} (hshort : items.length < parts.length) :
    exactItems parts items = .unmatched := by
  induction parts generalizing items with
  | nil => simp at hshort
  | cons part parts ih =>
    cases items with
    | nil => rfl
    | cons item items =>
      rw [exactItems, ih (Nat.lt_of_succ_lt_succ hshort)]
      cases exact part item <;> rfl

/-- A tuple does not match a shorter one, nor one with an item that does not match. -/
theorem exact_tuple_eq_unmatched_iff (parts items : List TypeExpr) :
    exact (.tuple parts) (.tuple items) = .unmatched ↔ items.length < parts.length ∨
      parts.length ≤ items.length ∧ ∃ pair ∈ parts.zip items, exact pair.1 pair.2 = .unmatched := by
  rw [exact_tuple]
  rcases Nat.lt_or_ge items.length parts.length with hshort | hlength
  · simp [exactItems_of_short hshort, hshort]
  · rw [exactItems_eq_visit hlength, visit_eq_unmatched_iff]
    simp [hlength, Nat.not_lt.mpr hlength]

/-- A tuple matches one that is long enough if the items match pair by pair. -/
theorem exact_tuple_eq_matched_iff (parts items : List TypeExpr) :
    exact (.tuple parts) (.tuple items) = .matched ↔
      parts.length ≤ items.length ∧ ∀ pair ∈ parts.zip items, exact pair.1 pair.2 = .matched := by
  rw [exact_tuple]
  rcases Nat.lt_or_ge items.length parts.length with hshort | hlength
  · simp [exactItems_of_short hshort, Nat.not_le.mpr hshort]
  · rw [exactItems_eq_visit hlength, visit_eq_matched_iff]
    simp [hlength]

/-- The items at the same place of two lists are a pair of the zipped lists. -/
theorem mem_zip_iff_getElem? {parts items : List TypeExpr} {part item : TypeExpr} :
    (part, item) ∈ parts.zip items ↔
      ∃ index : Nat, parts[index]? = some part ∧ items[index]? = some item := by
  simp only [List.mem_iff_getElem?, List.getElem?_zip_eq_some]

/-- Besides the whole only the pairs of the items of two tuples are compared. -/
theorem aligned_iff (pattern candidate part item : TypeExpr) :
    Aligned pattern candidate part item ↔ (part = pattern ∧ item = candidate) ∨
      ∃ parts items, pattern = .tuple parts ∧ candidate = .tuple items ∧
        parts.length ≤ items.length ∧
        ∃ pair ∈ parts.zip items, Aligned pair.1 pair.2 part item := by
  constructor
  · intro h
    induction h with
    | whole => exact .inl ⟨rfl, rfl⟩
    | @item _ _ index part item _ hlength hpart hitem ih =>
      rcases ih with ⟨rfl, rfl⟩ | ⟨parts, items, rfl, rfl, hwhole, pair, hpair, hinner⟩
      · exact .inr ⟨_, _, rfl, rfl, hlength, (part, item),
          mem_zip_iff_getElem?.mpr ⟨index, hpart, hitem⟩, .whole⟩
      · exact .inr ⟨parts, items, rfl, rfl, hwhole, pair, hpair, .item hinner hlength hpart hitem⟩
  · rintro (⟨rfl, rfl⟩ | ⟨parts, items, rfl, rfl, hlength, pair, hpair, hinner⟩)
    · exact .whole
    · obtain ⟨index, hpart, hitem⟩ := mem_zip_iff_getElem?.mp hpair
      induction hinner with
      | whole => exact .item .whole hlength hpart hitem
      | item _ hlength' hpart' hitem' ih => exact .item ih hlength' hpart' hitem'

section SomePair

variable {P : TypeExpr → TypeExpr → Prop}

/-- Where not both sides are tuples only the whole is compared. -/
theorem somePair_iff_of_atom {pattern candidate : TypeExpr}
    (hatom : ∀ parts items, pattern = .tuple parts → candidate ≠ .tuple items) :
    SomePair P pattern candidate ↔ P pattern candidate := by
  constructor
  · rintro ⟨part, item, haligned, hP⟩
    rcases (aligned_iff ..).mp haligned with ⟨rfl, rfl⟩ | ⟨parts, items, hpattern, hcandidate, -⟩
    · exact hP
    · exact absurd hcandidate (hatom parts items hpattern)
  · intro hP
    exact ⟨pattern, candidate, .whole, hP⟩

/-- Of two tuples the whole is compared and, if the candidate is long enough, what is compared in
their items. -/
theorem somePair_tuple_iff {parts items : List TypeExpr} :
    SomePair P (.tuple parts) (.tuple items) ↔ P (.tuple parts) (.tuple items) ∨
      parts.length ≤ items.length ∧ ∃ pair ∈ parts.zip items, SomePair P pair.1 pair.2 := by
  constructor
  · rintro ⟨part, item, haligned, hP⟩
    rcases (aligned_iff ..).mp haligned with
      ⟨rfl, rfl⟩ | ⟨parts', items', hparts, hitems, hlength, pair, hpair, hinner⟩
    · exact .inl hP
    · obtain rfl := TypeExpr.tuple.inj hparts
      obtain rfl := TypeExpr.tuple.inj hitems
      exact .inr ⟨hlength, pair, hpair, part, item, hinner, hP⟩
  · rintro (hP | ⟨hlength, pair, hpair, part, item, hinner, hP⟩)
    · exact ⟨_, _, .whole, hP⟩
    · exact ⟨part, item,
        (aligned_iff ..).mpr (.inr ⟨_, _, rfl, rfl, hlength, pair, hpair, hinner⟩), hP⟩

end SomePair

/-- Where not both sides are tuples there is no match exactly if the two clash. -/
theorem exact_eq_unmatched_iff_of_atom {pattern candidate : TypeExpr}
    (hatom : ∀ parts items, pattern = .tuple parts → candidate ≠ .tuple items) :
    exact pattern candidate = .unmatched ↔ Clash pattern candidate := by
  cases pattern with
  | leaf name =>
    rw [exact_leaf, Clash, ← not_or]
    split <;> simp [*]
  | literal text =>
    rw [exact_literal, Clash]
    split <;> simp [*]
  | tuple parts =>
    cases candidate with
    | leaf name => exact ⟨fun _ => trivial, fun _ => rfl⟩
    | literal text => exact ⟨fun h => (nomatch h), fun h => h.elim⟩
    | tuple items => exact absurd rfl (hatom parts items rfl)

/-- Where not both sides are tuples there is a match exactly if the two do not clash and can be
evaluated. -/
theorem exact_eq_matched_iff_of_atom {pattern candidate : TypeExpr}
    (hatom : ∀ parts items, pattern = .tuple parts → candidate ≠ .tuple items) :
    exact pattern candidate = .matched ↔
      ¬ Clash pattern candidate ∧ ¬ Undecidable pattern candidate := by
  cases pattern with
  | leaf name =>
    have hdecidable : ¬ Undecidable (.leaf name) candidate := by simp [Undecidable]
    rw [exact_leaf, Clash, and_iff_left hdecidable, ← not_or, not_not]
    split <;> simp [*]
  | literal text =>
    have hdecidable : ¬ Undecidable (.literal text) candidate := by simp [Undecidable]
    rw [exact_literal, Clash, and_iff_left hdecidable, not_not]
    split <;> simp [*]
  | tuple parts =>
    cases candidate with
    | leaf name => exact ⟨fun h => (nomatch h), fun h => absurd trivial h.1⟩
    | literal text => exact ⟨fun h => (nomatch h), fun h => absurd trivial h.2⟩
    | tuple items => exact absurd rfl (hatom parts items rfl)

/-- There is no match exactly if some pair clashes. -/
theorem exact_eq_unmatched_iff (pattern candidate : TypeExpr) :
    exact pattern candidate = .unmatched ↔ SomePair Clash pattern candidate := by
  induction pattern using TypeExpr.ind generalizing candidate with
  | leaf _ | literal _ =>
    rw [exact_eq_unmatched_iff_of_atom (by simp), somePair_iff_of_atom (by simp)]
  | tuple parts ih =>
    cases candidate with
    | leaf _ | literal _ =>
      rw [exact_eq_unmatched_iff_of_atom (by simp), somePair_iff_of_atom (by simp)]
    | tuple items =>
      rw [exact_tuple_eq_unmatched_iff, somePair_tuple_iff, Clash]
      refine or_congr_right
        (and_congr_right fun _ => exists_congr fun pair => and_congr_right fun hpair => ?_)
      exact ih pair.1 (List.of_mem_zip hpair).1 pair.2

/-- There is a match exactly if no pair clashes and each one can be evaluated. -/
theorem exact_eq_matched_iff_pairs (pattern candidate : TypeExpr) :
    exact pattern candidate = .matched ↔
      ¬ SomePair Clash pattern candidate ∧ ¬ SomePair Undecidable pattern candidate := by
  induction pattern using TypeExpr.ind generalizing candidate with
  | leaf _ | literal _ =>
    rw [exact_eq_matched_iff_of_atom (by simp), somePair_iff_of_atom (by simp),
      somePair_iff_of_atom (by simp)]
  | tuple parts ih =>
    cases candidate with
    | leaf _ | literal _ =>
      rw [exact_eq_matched_iff_of_atom (by simp), somePair_iff_of_atom (by simp),
        somePair_iff_of_atom (by simp)]
    | tuple items =>
      have hpairs : (∀ pair ∈ parts.zip items, exact pair.1 pair.2 = .matched) ↔
          ∀ pair ∈ parts.zip items,
          ¬ SomePair Clash pair.1 pair.2 ∧ ¬ SomePair Undecidable pair.1 pair.2 :=
        forall₂_congr fun pair hpair => ih pair.1 (List.of_mem_zip hpair).1 pair.2
      rw [exact_tuple_eq_matched_iff, hpairs, somePair_tuple_iff, somePair_tuple_iff, Clash]
      constructor
      · rintro ⟨hlength, hpairs⟩
        refine ⟨?_, ?_⟩
        · rintro (hshort | ⟨-, pair, hpair, hclash⟩)
          · exact absurd hlength (Nat.not_le.mpr hshort)
          · exact (hpairs pair hpair).1 hclash
        · rintro (hwhole | ⟨-, pair, hpair, hopen⟩)
          · exact hwhole
          · exact (hpairs pair hpair).2 hopen
      · rintro ⟨hclash, hopen⟩
        obtain ⟨hlength, hclash⟩ := not_or.mp hclash
        have hlength := Nat.not_lt.mp hlength
        refine ⟨hlength, fun pair hpair => ⟨fun h => hclash ⟨hlength, pair, hpair, h⟩, fun h => ?_⟩⟩
        exact hopen (.inr ⟨hlength, pair, hpair, h⟩)

/-- A visit ends as the visit with the outcomes of exact matches does, if each pair is evaluated
so. -/
theorem eq_visit_of_visits {pending : Bool} {pairs : List (TypeExpr × TypeExpr)} {outcome : Outcome}
    (h : ∀ pair ∈ pairs, ∀ found, Evaluates pair.1 pair.2 found → found = exact pair.1 pair.2)
    (hvisits : Visits pending pairs outcome) : outcome = visit pending pairs := by
  induction pairs generalizing pending with
  | nil =>
    cases hvisits
    rfl
  | cons pair rest ih =>
    obtain ⟨hpair, hrest⟩ := List.forall_mem_cons.mp h
    rw [visit]
    cases hvisits with
    | matched hfound hvisits => rw [← hpair _ hfound, ih hrest hvisits]
    | unmatched hfound => rw [← hpair _ hfound]
    | incompatible hfound hvisits => rw [← hpair _ hfound, ih hrest hvisits]

/-- Pairs are visited with the outcomes of exact matches, if each pair may be evaluated so. -/
theorem visits_visit {pairs : List (TypeExpr × TypeExpr)}
    (h : ∀ pair ∈ pairs, Evaluates pair.1 pair.2 (exact pair.1 pair.2)) (pending : Bool) :
    Visits pending pairs (visit pending pairs) := by
  induction pairs generalizing pending with
  | nil => exact .done pending
  | cons pair rest ih =>
    obtain ⟨hpair, hrest⟩ := List.forall_mem_cons.mp h
    rw [visit]
    cases houtcome : exact pair.1 pair.2 with
    | matched => exact .matched (houtcome ▸ hpair) (ih hrest pending)
    | unmatched => exact .unmatched (houtcome ▸ hpair)
    | incompatible => exact .incompatible (houtcome ▸ hpair) (ih hrest true)

/-- Every way to evaluate a match has its outcome. -/
theorem eq_exact_of_evaluates {pattern candidate : TypeExpr} {outcome : Outcome}
    (h : Evaluates pattern candidate outcome) : outcome = exact pattern candidate := by
  induction pattern using TypeExpr.ind generalizing candidate outcome with
  | leaf name =>
    cases h with
    | anything => exact (exact_wildcard candidate).symm
    | equal => exact (exact_self _).symm
    | atom hatom hwild hequal =>
      rw [exact_leaf, if_neg]
      exact not_or.mpr ⟨fun heq => hwild (congrArg TypeExpr.leaf heq), hequal⟩
  | literal text =>
    cases h with
    | equal => exact (exact_self _).symm
    | atom hatom hwild hequal => rw [exact_literal, if_neg hequal]
  | tuple parts ih =>
    cases h with
    | equal => exact (exact_self _).symm
    | atom hatom => exact absurd rfl (hatom parts)
    | leaf name => rfl
    | literal text => rfl
    | short hshort => rw [exact_tuple, exactItems_of_short hshort]
    | @items _ items order _ hlength horder hvisits =>
      have hpairs : ∀ pair ∈ order, ∀ found, Evaluates pair.1 pair.2 found →
          found = exact pair.1 pair.2 :=
        fun pair hpair _ hfound => ih pair.1 (List.of_mem_zip (horder.subset hpair)).1 hfound
      rw [exact_tuple, exactItems_eq_visit hlength, ← visit_perm horder,
        eq_visit_of_visits hpairs hvisits]

/-- A match may be evaluated to its outcome. -/
theorem evaluates_exact (pattern candidate : TypeExpr) :
    Evaluates pattern candidate (exact pattern candidate) := by
  -- Equal types match at once, so the induction is about types that differ.
  by_cases hequal : pattern = candidate
  · subst hequal
    rw [exact_self]
    exact .equal pattern
  induction pattern using TypeExpr.ind generalizing candidate with
  | leaf name =>
    by_cases hwild : name = wildcard
    · subst hwild
      rw [exact_wildcard]
      exact .anything candidate
    · rw [exact_leaf, if_neg (not_or.mpr ⟨hwild, hequal⟩)]
      exact .atom nofun (fun heq => hwild (TypeExpr.leaf.inj heq)) hequal
  | literal text =>
    rw [exact_literal, if_neg hequal]
    exact .atom nofun nofun hequal
  | tuple parts ih =>
    cases candidate with
    | leaf name => exact .leaf parts name
    | literal text => exact .literal parts text
    | tuple items =>
      rw [exact_tuple]
      rcases Nat.lt_or_ge items.length parts.length with hshort | hlength
      · rw [exactItems_of_short hshort]
        exact .short hshort
      · rw [exactItems_eq_visit hlength]
        refine .items hlength (List.Perm.refl _) (visits_visit (fun pair hpair => ?_) false)
        by_cases hsame : pair.1 = pair.2
        · rw [hsame, exact_self]
          exact .equal pair.2
        · exact ih pair.1 (List.of_mem_zip hpair).1 pair.2 hsame

/-- The outcome of an exact match is decided by the pairs that are compared. It is no match exactly
if some pair clashes, it cannot be evaluated exactly if none clashes and some pair cannot be
evaluated, and it is a match otherwise. It is what every evaluation comes to, in whatever order the
pairs of items are visited and whether or not equal tuples are recognised. -/
theorem exact_decided_by_pairs (pattern candidate : TypeExpr) :
    (exact pattern candidate = .unmatched ↔ SomePair Clash pattern candidate) ∧
    (exact pattern candidate = .incompatible ↔
      ¬ SomePair Clash pattern candidate ∧ SomePair Undecidable pattern candidate) ∧
    (exact pattern candidate = .matched ↔
      ¬ SomePair Clash pattern candidate ∧ ¬ SomePair Undecidable pattern candidate) ∧
    (∀ outcome, Evaluates pattern candidate outcome ↔ outcome = exact pattern candidate) := by
  have hunmatched := exact_eq_unmatched_iff pattern candidate
  have hmatched := exact_eq_matched_iff_pairs pattern candidate
  refine ⟨hunmatched, ?_, hmatched, fun outcome => ⟨eq_exact_of_evaluates, ?_⟩⟩
  · cases houtcome : exact pattern candidate with
    | matched => simp [hmatched.mp houtcome]
    | unmatched => simp [hunmatched.mp houtcome]
    | incompatible =>
      have hclash : ¬ SomePair Clash pattern candidate := by
        rw [← hunmatched, houtcome]
        decide
      have hopen : SomePair Undecidable pattern candidate := by
        by_contra hdecided
        cases houtcome.symm.trans (hmatched.mpr ⟨hclash, hdecided⟩)
      simp [hclash, hopen]
  · rintro rfl
    exact evaluates_exact pattern candidate

/-- The items of a pattern for references to vectors. -/
def vectorReference : List TypeExpr := [.tuple [.leaf "vector", .leaf "?"], .leaf "&"]

/-- The items of a type with a number in the place of what is referred to. -/
def numberReference (mark : String) : List TypeExpr := [.literal "7", .leaf mark]

/-- A number in the place of the vector leaves the match open, unless the name behind it clashes. It
does so as well when the names are visited first, which does not come to the number. -/
theorem exact_decided_by_pairs_number :
    SomePair Undecidable (.tuple vectorReference) (.tuple (numberReference "&")) ∧
    SomePair Clash (.tuple vectorReference) (.tuple (numberReference "*")) := by
  have hreference :
      exact (.tuple vectorReference) (.tuple (numberReference "&")) = .incompatible := by
    decide +kernel
  have hnames : Visits false (vectorReference.zip (numberReference "*")).reverse .unmatched :=
    .unmatched (.atom nofun (by decide) (by decide))
  obtain ⟨-, hopen, -⟩ :=
    exact_decided_by_pairs (.tuple vectorReference) (.tuple (numberReference "&"))
  obtain ⟨hclash, -, -, hevaluates⟩ :=
    exact_decided_by_pairs (.tuple vectorReference) (.tuple (numberReference "*"))
  have hpointer := (hevaluates _).mp (.items (by decide) (List.reverse_perm _) hnames)
  exact ⟨(hopen.mp hreference).2, hclash.mp hpointer.symm⟩

end TypeSieve.Matcher
