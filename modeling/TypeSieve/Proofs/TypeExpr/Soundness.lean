import TypeSieve.Proofs.TypeExpr.Grammar

/-!
# What is read has a derivation

The text that a reader has taken so far consists of the beginnings of its unfinished tuples, one
inside the other, and of what it is in the middle of. Every step keeps this invariant, and a reader
that is outside all tuples and has a complete expression has read a derivable text.
-/

namespace TypeSieve

open Notation (Spacing Bare Atom Expr Tuple Items)

namespace TypeExpr.Reading

/-- Expressions that are each followed by a comma, their types last first. -/
inductive Listed : List Char → List TypeExpr → Prop
  | nil : Listed [] []
  | snoc {cs text : List Char} {items : List TypeExpr} {e : TypeExpr} (hlisted : Listed cs items)
    (he : Expr text e) : Listed (cs ++ text ++ [',']) (e :: items)

/-- The beginnings of unfinished tuples, up to where an item is due in the innermost one. -/
inductive Opened : List Char → List (List TypeExpr) → Prop
  | outside : Opened [] []
  | inside {cs before text : List Char} {items : List TypeExpr} {tuples : List (List TypeExpr)}
    (houter : Opened cs tuples) (hbefore : Spacing before) (hlisted : Listed text items) :
    Opened (cs ++ before ++ '(' :: text) (items :: tuples)

/-- What a reader has taken, by what it is in the middle of. -/
inductive Taken : List Char → Reading → Prop
  | item {cs after : List Char} {tuples : List (List TypeExpr)} (hopened : Opened cs tuples)
    (hafter : Spacing after) : Taken (cs ++ after) ⟨tuples, .item⟩
  | bare {cs before read : List Char} {tuples : List (List TypeExpr)} (hopened : Opened cs tuples)
    (hbefore : Spacing before) (hbare : Bare read.reverse) :
    Taken (cs ++ before ++ read.reverse) ⟨tuples, .bare read⟩
  | quoted {cs before read : List Char} {mark : Char} {tuples : List (List TypeExpr)}
    (hopened : Opened cs tuples) (hbefore : Spacing before) (hmark : mark = '"' ∨ mark = '\'')
    (hread : mark ∉ read) : Taken (cs ++ before ++ mark :: read.reverse) ⟨tuples, .quoted mark read⟩
  | after {cs text : List Char} {tuples : List (List TypeExpr)} {e : TypeExpr}
    (hopened : Opened cs tuples) (he : Expr text e) : Taken (cs ++ text) ⟨tuples, .after e⟩

/-- An atom behind spacing is an expression. -/
theorem expr_of_atom {before cs : List Char} {e : TypeExpr} (hbefore : Spacing before)
    (hatom : Atom cs e) : Expr (before ++ cs) e := by
  simpa using Expr.atom hbefore hatom .nil

/-- A tuple behind spacing is an expression. -/
theorem expr_of_tuple {before cs : List Char} {items : List TypeExpr} (hbefore : Spacing before)
    (htuple : Tuple cs items) : Expr (before ++ cs) (.tuple items) := by
  simpa using Expr.tuple hbefore htuple .nil

/-- Spacing behind an expression belongs to it. -/
theorem expr_append_spacing {cs after : List Char} {e : TypeExpr} (he : Expr cs e)
    (hafter : Spacing after) : Expr (cs ++ after) e := by
  cases he with
  | tuple hbefore htuple hmiddle =>
    rw [List.append_assoc]
    exact .tuple hbefore htuple (hmiddle.append hafter)
  | atom hbefore hatom hmiddle =>
    rw [List.append_assoc]
    exact .atom hbefore hatom (hmiddle.append hafter)

/-- Expressions with commas behind them come before further items. -/
theorem Listed.items {cs : List Char} {items : List TypeExpr} (h : Listed cs items)
    {rest : List Char} {more : List TypeExpr} (hrest : Items rest more) :
    Items (cs ++ rest) (items.reverse ++ more) := by
  induction h generalizing rest more with
  | nil => exact hrest
  | snoc hlisted he ih => simpa using ih (.more he hrest)

/-- A tuple may end where an item is due. -/
theorem Listed.tuple {cs after : List Char} {items : List TypeExpr} (h : Listed cs items)
    (hafter : Spacing after) : Tuple ('(' :: (cs ++ after) ++ [')']) items.reverse := by
  cases h with
  | nil => exact .empty hafter
  | snoc hlisted he => simpa using Tuple.trailing (hlisted.items (.one he)) hafter

/-- The reader has taken nothing at first. -/
theorem taken_start : Taken [] start := .item .outside .nil

/-- Taking a character behind a complete item keeps the account of what was taken. -/
theorem taken_follow {cs text : List Char} {tuples : List (List TypeExpr)} {e : TypeExpr} {c : Char}
    {next : Reading} (hopened : Opened cs tuples) (he : Expr text e)
    (h : follow tuples e c = some next) : Taken (cs ++ text ++ [c]) next := by
  unfold follow at h
  split at h
  · next hspacing =>
    obtain rfl := Option.some.inj h
    rw [List.append_assoc]
    refine .after hopened (expr_append_spacing he ?_)
    rw [Notation.spacing_iff]
    simpa using hspacing
  · cases hopened with
    | outside => cases h
    | @inside cs before inner items outer houter hbefore hlisted =>
      dsimp only at h
      split at h
      · next hcomma =>
        obtain rfl := Option.some.inj h
        subst hcomma
        have htext : cs ++ before ++ '(' :: inner ++ text ++ [','] =
            cs ++ before ++ '(' :: (inner ++ text ++ [',']) ++ [] := by simp
        rw [htext]
        exact .item (.inside houter hbefore (.snoc hlisted he)) .nil
      · split at h
        · next hclose =>
          obtain rfl := Option.some.inj h
          subst hclose
          have htext : cs ++ before ++ '(' :: inner ++ text ++ [')'] =
              cs ++ (before ++ ('(' :: (inner ++ text) ++ [')'])) := by simp
          rw [htext, List.reverse_cons]
          exact .after houter (expr_of_tuple hbefore (.plain (hlisted.items (.one he))))
        · cases h

/-- Taking a character where an item is due keeps the account of what was taken. -/
theorem taken_enter {cs after : List Char} {tuples : List (List TypeExpr)} {c : Char}
    {next : Reading} (hopened : Opened cs tuples) (hafter : Spacing after)
    (h : enter tuples c = some next) : Taken (cs ++ after ++ [c]) next := by
  unfold enter at h
  split at h
  · next hspacing =>
    obtain rfl := Option.some.inj h
    rw [List.append_assoc]
    refine .item hopened (hafter.append ?_)
    rw [Notation.spacing_iff]
    simpa using hspacing
  split at h
  · next hopen =>
    obtain rfl := Option.some.inj h
    subst hopen
    simpa using Taken.item (.inside hopened hafter .nil) .nil
  split at h
  · next hclose =>
    subst hclose
    cases hopened with
    | outside => cases h
    | @inside cs before inner items outer houter hbefore hlisted =>
      obtain rfl := Option.some.inj h
      have htext : cs ++ before ++ '(' :: inner ++ after ++ [')'] =
          cs ++ (before ++ ('(' :: (inner ++ after) ++ [')'])) := by simp
      rw [htext]
      exact .after houter (expr_of_tuple hbefore (hlisted.tuple hafter))
  split at h
  · next hquote =>
    obtain rfl := Option.some.inj h
    exact .quoted hopened hafter hquote List.not_mem_nil
  split at h
  · next hbare =>
    obtain rfl := Option.some.inj h
    have hone : Bare [c].reverse := by
      rw [Notation.bare_iff]
      simpa using hbare
    exact .bare hopened hafter hone
  · cases h

/-- Every step keeps the account of what was taken. -/
theorem Taken.step {cs : List Char} {r next : Reading} {c : Char} (h : Taken cs r)
    (hstep : r.step c = some next) : Taken (cs ++ [c]) next := by
  cases h with
  | item hopened hafter => exact taken_enter hopened hafter hstep
  | @bare cs before read tuples hopened hbefore hbare =>
    unfold Reading.step at hstep
    dsimp only at hstep
    split at hstep
    · next hc =>
      obtain rfl := Option.some.inj hstep
      rw [List.append_assoc, ← List.reverse_cons]
      refine .bare hopened hbefore ?_
      rw [Notation.bare_iff] at hbare ⊢
      refine ⟨by simp, fun d hd => ?_⟩
      rw [List.reverse_cons, List.mem_append, List.mem_singleton] at hd
      rcases hd with hd | rfl
      · exact hbare.2 d hd
      · exact hc
    · rw [List.append_assoc cs before]
      exact taken_follow hopened (expr_of_atom hbefore hbare.atom) hstep
  | @quoted cs before read mark tuples hopened hbefore hmark hread =>
    unfold Reading.step at hstep
    dsimp only at hstep
    split at hstep
    · next hc =>
      obtain rfl := Option.some.inj hstep
      subst hc
      have htext : cs ++ before ++ c :: read.reverse ++ [c] =
          cs ++ (before ++ (c :: read.reverse ++ [c])) := by simp
      rw [htext]
      exact .after hopened (expr_of_atom hbefore (.quoted hmark (by simpa using hread)))
    · next hc =>
      obtain rfl := Option.some.inj hstep
      have htext : cs ++ before ++ mark :: read.reverse ++ [c] =
          cs ++ before ++ mark :: (c :: read).reverse := by simp
      rw [htext]
      refine .quoted hopened hbefore hmark ?_
      rw [List.mem_cons, not_or]
      exact ⟨Ne.symm hc, hread⟩
  | after hopened he => exact taken_follow hopened he hstep

/-- Reading on keeps the account of what was taken. -/
theorem Taken.run {cs more : List Char} {r next : Reading} (h : Taken cs r)
    (hrun : more.foldlM Reading.step r = some next) : Taken (cs ++ more) next := by
  induction more generalizing cs r with
  | nil =>
    obtain rfl := Option.some.inj hrun
    simpa using h
  | cons c rest ih =>
    obtain ⟨middle, hstep, hrest⟩ := Option.bind_eq_some_iff.mp hrun
    simpa using ih (h.step hstep) hrest

/-- A reader with a complete expression has taken its text. -/
theorem Taken.expr {cs : List Char} {r : Reading} {e : TypeExpr} (h : Taken cs r)
    (hcomplete : r.complete? = some e) : Expr cs e := by
  cases h with
  | item hopened hafter => cases hopened <;> cases hcomplete
  | quoted hopened hbefore hmark hread => cases hopened <;> cases hcomplete
  | bare hopened hbefore hbare =>
    cases hopened with
    | outside =>
      obtain rfl := Option.some.inj hcomplete
      exact expr_of_atom hbefore hbare.atom
    | inside => cases hcomplete
  | after hopened he =>
    cases hopened with
    | outside =>
      obtain rfl := Option.some.inj hcomplete
      exact he
    | inside => cases hcomplete

/-- What is read completely has a derivation. -/
theorem expr_of_ofChars? {cs : List Char} {e : TypeExpr} (h : ofChars? cs = some e) :
    Expr cs e := by
  obtain ⟨r, hrun, hcomplete⟩ := Option.bind_eq_some_iff.mp h
  exact (taken_start.run hrun).expr hcomplete

end TypeExpr.Reading

end TypeSieve
