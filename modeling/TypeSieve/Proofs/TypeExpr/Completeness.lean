import TypeSieve.Proofs.TypeExpr.Grammar

/-!
# What the grammar derives is read

A reader that starts on an expression inside any unfinished tuples stands behind it in the same
tuples when its text ends. A bare atom is the one expression that the next character may still
extend, so standing behind an expression has two forms.
-/

namespace TypeSieve

namespace TypeExpr.Reading

/-- The reader after further characters. -/
def run (r : Reading) (cs : List Char) : Option Reading := cs.foldlM step r

/-- Reading nothing leaves the reader as it is. -/
@[simp] theorem run_nil (r : Reading) : r.run [] = some r := rfl

/-- Reading begins with a step. -/
@[simp] theorem run_cons (r : Reading) (c : Char) (cs : List Char) :
    r.run (c :: cs) = (r.step c).bind fun next => next.run cs := rfl

/-- Reading two texts is reading one after the other. -/
theorem run_append (r : Reading) (a b : List Char) :
    r.run (a ++ b) = (r.run a).bind fun next => next.run b := by
  rw [run, List.foldlM_append]
  rfl

/-- The reader stands behind an expression in unfinished tuples. -/
inductive Behind : Reading → List (List TypeExpr) → TypeExpr → Prop
  | after (tuples : List (List TypeExpr)) (e : TypeExpr) : Behind ⟨tuples, .after e⟩ tuples e
  | bare (tuples : List (List TypeExpr)) (read : List Char) :
    Behind ⟨tuples, .bare read⟩ tuples (ofBare (String.ofList read.reverse))

/-- Behind an expression, what is no bare character follows the complete expression. -/
theorem Behind.step_eq_follow {r : Reading} {tuples : List (List TypeExpr)} {e : TypeExpr}
    (h : Behind r tuples e) {c : Char} (hc : isBare c = false) : r.step c = follow tuples e c := by
  cases h with
  | after => rfl
  | bare read => simp [step, hc]

/-- Outside all tuples, an expression behind which the reader stands is complete. -/
theorem Behind.complete? {r : Reading} {e : TypeExpr} (h : Behind r [] e) :
    r.complete? = some e := by
  cases h <;> rfl

/-- A skipped character is no bare character. -/
theorem isBare_of_isSpacing {c : Char} (h : Text.isSpacing c = true) : isBare c = false := by
  simp [isBare, Text.isBlank_of_isSpacing h]

/-- Spacing before an item changes nothing. -/
theorem run_item_of_spacing {cs : List Char} (hcs : Notation.Spacing cs)
    (tuples : List (List TypeExpr)) : run ⟨tuples, .item⟩ cs = some ⟨tuples, .item⟩ := by
  rw [Notation.spacing_iff] at hcs
  induction cs with
  | nil => rfl
  | cons c rest ih =>
    rw [List.forall_mem_cons] at hcs
    simp only [run_cons, step, enter, hcs.1, if_true, Option.bind_some]
    exact ih hcs.2

/-- Spacing behind an expression leaves the reader behind it. -/
theorem Behind.run_spacing {r : Reading} {tuples : List (List TypeExpr)} {e : TypeExpr}
    (h : Behind r tuples e) {cs : List Char} (hcs : Notation.Spacing cs) :
    ∃ next, r.run cs = some next ∧ Behind next tuples e := by
  rw [Notation.spacing_iff] at hcs
  induction cs generalizing r with
  | nil => exact ⟨r, rfl, h⟩
  | cons c rest ih =>
    rw [List.forall_mem_cons] at hcs
    have hstep : r.step c = some ⟨tuples, .after e⟩ := by
      rw [h.step_eq_follow (isBare_of_isSpacing hcs.1)]
      unfold follow
      rw [if_pos hcs.1]
    obtain ⟨next, hrun, hnext⟩ := ih (.after tuples e) hcs.2
    exact ⟨next, by rw [run_cons, hstep, Option.bind_some, hrun], hnext⟩

/-- A bare run is gathered. -/
theorem run_bare {cs : List Char} (hcs : ∀ c ∈ cs, isBare c = true) (tuples : List (List TypeExpr))
    (read : List Char) :
    run ⟨tuples, .bare read⟩ cs = some ⟨tuples, .bare (cs.reverse ++ read)⟩ := by
  induction cs generalizing read with
  | nil => rfl
  | cons c rest ih =>
    rw [List.forall_mem_cons] at hcs
    simp only [run_cons, step, hcs.1, if_true, Option.bind_some]
    rw [ih hcs.2, List.reverse_cons, List.append_assoc, List.singleton_append]

/-- A text without the quote is gathered. -/
theorem run_quoted {mark : Char} {cs : List Char} (hcs : mark ∉ cs) (tuples : List (List TypeExpr))
    (read : List Char) :
    run ⟨tuples, .quoted mark read⟩ cs = some ⟨tuples, .quoted mark (cs.reverse ++ read)⟩ := by
  induction cs generalizing read with
  | nil => rfl
  | cons c rest ih =>
    obtain ⟨hne, hrest⟩ := not_or.mp (mt List.mem_cons.mpr hcs)
    simp only [run_cons, step, if_neg (Ne.symm hne), Option.bind_some]
    rw [ih hrest, List.reverse_cons, List.append_assoc, List.singleton_append]

/-- A bare character neither is skipped nor begins a tuple or a quoted text. -/
theorem enter_of_isBare {c : Char} (hc : isBare c = true) (tuples : List (List TypeExpr)) :
    enter tuples c = some ⟨tuples, .bare [c]⟩ := by
  have hspacing : Text.isSpacing c = false := by
    rw [Bool.eq_false_iff]
    intro h
    rw [isBare_of_isSpacing h] at hc
    cases hc
  have hdelimiter : isDelimiter c = false := by
    simp only [isBare, Bool.and_eq_true, Bool.not_eq_true'] at hc
    exact hc.2
  simp only [isDelimiter, Bool.or_eq_false_iff, beq_eq_false_iff_ne] at hdelimiter
  obtain ⟨⟨⟨⟨hopen, hclose⟩, -⟩, hdouble⟩, hsingle⟩ := hdelimiter
  simp [enter, hspacing, hopen, hclose, hdouble, hsingle, hc]

/-- A quote begins a quoted text. -/
theorem enter_quote {mark : Char} (hmark : mark = '"' ∨ mark = '\'')
    (tuples : List (List TypeExpr)) : enter tuples mark = some ⟨tuples, .quoted mark []⟩ := by
  rcases hmark with rfl | rfl <;> rfl

/-- A bare run is read as an atom. -/
theorem run_item_of_bare {cs : List Char} (hbare : Notation.Bare cs)
    (tuples : List (List TypeExpr)) :
    ∃ r, run ⟨tuples, .item⟩ cs = some r ∧ Behind r tuples (ofBare (String.ofList cs)) := by
  obtain ⟨hne, hcs⟩ := (Notation.bare_iff cs).mp hbare
  cases cs with
  | nil => exact absurd rfl hne
  | cons c rest =>
    rw [List.forall_mem_cons] at hcs
    refine ⟨⟨tuples, .bare (rest.reverse ++ [c])⟩, ?_, ?_⟩
    · simp only [run_cons, step, enter_of_isBare hcs.1, Option.bind_some]
      exact run_bare hcs.2 tuples [c]
    · simpa using Behind.bare tuples (rest.reverse ++ [c])

/-- An atom is read. -/
theorem run_item_of_atom {cs : List Char} {e : TypeExpr} (h : Notation.Atom cs e)
    (tuples : List (List TypeExpr)) :
    ∃ r, run ⟨tuples, .item⟩ cs = some r ∧ Behind r tuples e := by
  cases h with
  | @quoted mark cs hmark hcs =>
    refine ⟨⟨tuples, .after (.leaf (String.ofList cs))⟩, ?_, .after _ _⟩
    have hstart : step ⟨tuples, .item⟩ mark = some ⟨tuples, .quoted mark []⟩ :=
      enter_quote hmark tuples
    rw [List.cons_append, run_cons, hstart, Option.bind_some, run_append, run_quoted hcs,
      Option.bind_some, run_cons]
    simp [step]
  | number hbare hnumber =>
    rw [← hnumber.ofBare_eq]
    exact run_item_of_bare hbare tuples
  | name hbare hnumber =>
    rw [← Notation.ofBare_eq_leaf hnumber]
    exact run_item_of_bare hbare tuples

/-- A comma behind an expression in a tuple puts it among the items. -/
theorem Behind.step_comma {r : Reading} {read : List TypeExpr} {tuples : List (List TypeExpr)}
    {e : TypeExpr} (h : Behind r (read :: tuples) e) :
    r.step ',' = some ⟨(e :: read) :: tuples, .item⟩ := by
  rw [h.step_eq_follow (by decide)]
  rfl

/-- A closing parenthesis behind an expression in a tuple completes the tuple. -/
theorem Behind.step_close {r : Reading} {read : List TypeExpr} {tuples : List (List TypeExpr)}
    {e : TypeExpr} (h : Behind r (read :: tuples) e) :
    r.step ')' = some ⟨tuples, .after (.tuple (e :: read).reverse)⟩ := by
  rw [h.step_eq_follow (by decide)]
  rfl

/-- An opening parenthesis begins a tuple. -/
theorem step_open (tuples : List (List TypeExpr)) :
    step ⟨tuples, .item⟩ '(' = some ⟨[] :: tuples, .item⟩ := rfl

/-- A closing parenthesis where an item is due completes the tuple. -/
theorem step_item_close (read : List TypeExpr) (tuples : List (List TypeExpr)) :
    step ⟨read :: tuples, .item⟩ ')' = some ⟨tuples, .after (.tuple read.reverse)⟩ := rfl

mutual

/-- An expression is read. -/
theorem run_item_of_expr {cs : List Char} {e : TypeExpr} :
    Notation.Expr cs e → ∀ tuples, ∃ r, run ⟨tuples, .item⟩ cs = some r ∧ Behind r tuples e
  | .tuple hbefore htuple hafter, tuples => by
    obtain ⟨next, hrun, hnext⟩ := (Behind.after tuples (.tuple _)).run_spacing hafter
    refine ⟨next, ?_, hnext⟩
    rw [run_append, run_append, run_item_of_spacing hbefore, Option.bind_some,
      run_item_of_tuple htuple tuples, Option.bind_some, hrun]
  | .atom hbefore hatom hafter, tuples => by
    obtain ⟨r, hrun, hr⟩ := run_item_of_atom hatom tuples
    obtain ⟨next, hrun', hnext⟩ := hr.run_spacing hafter
    refine ⟨next, ?_, hnext⟩
    rw [run_append, run_append, run_item_of_spacing hbefore, Option.bind_some, hrun,
      Option.bind_some, hrun']

/-- A tuple is read. -/
theorem run_item_of_tuple {cs : List Char} {items : List TypeExpr} :
    Notation.Tuple cs items →
      ∀ tuples, run ⟨tuples, .item⟩ cs = some ⟨tuples, .after (.tuple items)⟩
  | .empty hspacing, tuples => by
    rw [List.cons_append, run_cons, step_open, Option.bind_some, run_append,
      run_item_of_spacing hspacing, Option.bind_some, run_cons, step_item_close]
    rfl
  | .plain hitems, tuples => by
    obtain ⟨r, e, init, rfl, hrun, hr⟩ := run_item_of_items hitems [] tuples
    rw [List.append_nil] at hr
    rw [List.cons_append, run_cons, step_open, Option.bind_some, run_append, hrun,
      Option.bind_some, run_cons, hr.step_close, List.reverse_cons, List.reverse_reverse]
    rfl
  | .trailing hitems hafter, tuples => by
    obtain ⟨r, e, init, rfl, hrun, hr⟩ := run_item_of_items hitems [] tuples
    rw [List.append_nil] at hr
    rw [List.cons_append, List.cons_append, run_cons, step_open, Option.bind_some, run_append,
      run_append, hrun, Option.bind_some, run_cons, hr.step_comma, Option.bind_some,
      run_item_of_spacing hafter, Option.bind_some, run_cons, step_item_close, List.reverse_cons,
      List.reverse_reverse]
    rfl

/-- The expressions in a tuple are read; the reader stands behind the last, with those before it
among the items. -/
theorem run_item_of_items {cs : List Char} {items : List TypeExpr} :
    Notation.Items cs items → ∀ read tuples, ∃ r e init, items = init ++ [e] ∧
      run ⟨read :: tuples, .item⟩ cs = some r ∧ Behind r ((init.reverse ++ read) :: tuples) e
  | .one he, read, tuples => by
    obtain ⟨r, hrun, hr⟩ := run_item_of_expr he (read :: tuples)
    exact ⟨r, _, [], rfl, hrun, hr⟩
  | .more (e := first) he hrest, read, tuples => by
    obtain ⟨r, hrun, hr⟩ := run_item_of_expr he (read :: tuples)
    obtain ⟨r', e, init, rfl, hrun', hr'⟩ := run_item_of_items hrest (first :: read) tuples
    refine ⟨r', e, first :: init, rfl, ?_, ?_⟩
    · rw [run_append, hrun, Option.bind_some, run_cons, hr.step_comma, Option.bind_some, hrun']
    · rw [List.reverse_cons, List.append_assoc, List.singleton_append]
      exact hr'

end

/-- What the grammar derives is read completely. -/
theorem ofChars?_of_expr {cs : List Char} {e : TypeExpr} (h : Notation.Expr cs e) :
    ofChars? cs = some e := by
  obtain ⟨r, hrun, hr⟩ := run_item_of_expr h []
  change (run ⟨[], .item⟩ cs).bind complete? = some e
  rw [hrun, Option.bind_some, hr.complete?]

end TypeExpr.Reading

end TypeSieve
