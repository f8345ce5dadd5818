import TypeSieve.Proofs.TypeExpr.Completeness
import TypeSieve.Proofs.TypeExpr.ReadBack

/-!
# Quotes in what is shown

A reader that is outside quotes behind the notation of a type was outside quotes before it, and has
met no escaped quote on the way. This is seen from the end: the last quote of a quoted name closes
it, the characters before it were all read inside quotes, and an escaped quote among them would have
had to begin an atom right behind a backslash, where no atom begins.
-/

namespace TypeSieve.TypeExpr.Reading

open Notation (Bare itemsChars lastComma)

/-- The reader is outside quotes. -/
def Outside (r : Reading) : Prop := ∀ mark read, r.phase ≠ .quoted mark read

/-- The reader is inside double quotes. -/
def InsideDouble (r : Reading) : Prop := ∃ read, r.phase = .quoted '"' read

/-- The reader has taken some text. -/
def Reached (r : Reading) : Prop := ∃ cs, Taken cs r

/-- Reading on from where some text leads, the reader is where some text leads. -/
theorem Reached.run {cs : List Char} {r next : Reading} (h : Reached r)
    (hrun : r.run cs = some next) : Reached next := by
  obtain ⟨before, htaken⟩ := h
  exact ⟨before ++ cs, htaken.run hrun⟩

/-- Quotes are of two kinds. -/
theorem Reached.mark {tuples : List (List TypeExpr)} {mark : Char} {read : List Char}
    (h : Reached ⟨tuples, .quoted mark read⟩) : mark = '"' ∨ mark = '\'' := by
  obtain ⟨cs, htaken⟩ := h
  cases htaken with
  | quoted hopened hbefore hmark hread => exact hmark

/-- Inside quotes, the same quote ends the name and anything else is gathered. -/
theorem step_quoted (tuples : List (List TypeExpr)) (mark c : Char) (read : List Char) :
    step ⟨tuples, .quoted mark read⟩ c =
      if c = mark then some ⟨tuples, .after (.leaf (String.ofList read.reverse))⟩
      else some ⟨tuples, .quoted mark (c :: read)⟩ := rfl

/-- Behind a complete item no quote is open. -/
theorem outside_of_follow {tuples : List (List TypeExpr)} {done : TypeExpr} {c : Char}
    {next : Reading} (h : follow tuples done c = some next) : next.Outside := by
  intro mark read
  unfold follow at h
  split at h
  · obtain rfl := Option.some.inj h
    exact nofun
  cases tuples with
  | nil => cases h
  | cons items outer =>
    dsimp only at h
    split at h
    · obtain rfl := Option.some.inj h
      exact nofun
    split at h
    · obtain rfl := Option.some.inj h
      exact nofun
    · cases h

/-- Behind an item, no character leads into quotes. -/
theorem Behind.outside {r next : Reading} {tuples : List (List TypeExpr)} {e : TypeExpr} {c : Char}
    (h : Behind r tuples e) (hstep : r.step c = some next) : next.Outside := by
  cases h with
  | after => exact outside_of_follow hstep
  | bare read =>
    unfold step at hstep
    dsimp only at hstep
    split at hstep
    · obtain rfl := Option.some.inj hstep
      exact nofun
    · exact outside_of_follow hstep

/-- Behind an item no quote may stand. -/
theorem Behind.step_quote {r : Reading} {tuples : List (List TypeExpr)} {e : TypeExpr}
    (h : Behind r tuples e) : r.step '"' = none := by
  rw [h.step_eq_follow (by decide)]
  cases tuples <;> rfl

/-- Where an item is due, only a quote leads into quotes, and into those of its own kind. -/
theorem outside_of_enter {tuples : List (List TypeExpr)} {c : Char} {next : Reading}
    (h : enter tuples c = some next) : next.Outside ∨ next.phase = .quoted c [] := by
  unfold enter at h
  split at h
  · obtain rfl := Option.some.inj h
    exact Or.inl nofun
  split at h
  · obtain rfl := Option.some.inj h
    exact Or.inl nofun
  split at h
  · cases tuples with
    | nil => cases h
    | cons items outer =>
      obtain rfl := Option.some.inj h
      exact Or.inl nofun
  split at h
  · obtain rfl := Option.some.inj h
    exact Or.inr rfl
  split at h
  · obtain rfl := Option.some.inj h
    exact Or.inl nofun
  · cases h

/-- An item is due, an item was read, or the reader is inside quotes. -/
theorem place_cases (r : Reading) :
    (∃ tuples, r = ⟨tuples, .item⟩) ∨ (∃ tuples e, Behind r tuples e) ∨
    ∃ tuples mark read, r = ⟨tuples, .quoted mark read⟩ := by
  obtain ⟨tuples, phase⟩ := r
  cases phase with
  | item => exact Or.inl ⟨tuples, rfl⟩
  | bare read => exact Or.inr (Or.inl ⟨_, _, .bare tuples read⟩)
  | after done => exact Or.inr (Or.inl ⟨_, _, .after tuples done⟩)
  | quoted mark read => exact Or.inr (Or.inr ⟨tuples, mark, read, rfl⟩)

/-- Behind a backslash no item is due. -/
theorem phase_ne_item_of_step {r next : Reading} (h : r.step '\\' = some next) :
    next.phase ≠ .item := by
  obtain ⟨tuples, phase⟩ := r
  cases phase with
  | item =>
    obtain rfl := Option.some.inj h
    exact nofun
  | bare read =>
    obtain rfl := Option.some.inj h
    exact nofun
  | quoted mark read =>
    rw [step_quoted] at h
    split at h
    · obtain rfl := Option.some.inj h
      exact nofun
    · obtain rfl := Option.some.inj h
      exact nofun
  | after done => cases tuples <;> cases h

/-- A quote leads into double quotes only where an item is due. -/
theorem phase_eq_item_of_step {r next : Reading} (h : r.step '"' = some next)
    (hnext : next.InsideDouble) : r.phase = .item := by
  obtain ⟨read, hphase⟩ := hnext
  rcases place_cases r with ⟨tuples, rfl⟩ | ⟨tuples, e, hbehind⟩ | ⟨tuples, mark, done, rfl⟩
  · rfl
  · exact absurd hphase (hbehind.outside h _ _)
  · rw [step_quoted] at h
    split at h
    · obtain rfl := Option.some.inj h
      cases hphase
    · next hmark =>
      obtain rfl := Option.some.inj h
      exact absurd (Phase.quoted.inj hphase).1.symm hmark

/-- A quote leads out of quotes only from inside double quotes. -/
theorem insideDouble_of_step {r next : Reading} (h : r.step '"' = some next)
    (hnext : next.Outside) : r.InsideDouble := by
  rcases place_cases r with ⟨tuples, rfl⟩ | ⟨tuples, e, hbehind⟩ | ⟨tuples, mark, done, rfl⟩
  · obtain rfl := Option.some.inj h
    exact absurd rfl (hnext _ _)
  · rw [hbehind.step_quote] at h
    cases h
  · rw [step_quoted] at h
    split at h
    · next hmark => exact ⟨done, by rw [hmark]⟩
    · obtain rfl := Option.some.inj h
      exact absurd rfl (hnext _ _)

/-- What is neither kind of quote leads out of quotes only from outside. -/
theorem outside_of_step {r next : Reading} {c : Char} (hr : Reached r) (h : r.step c = some next)
    (hc : c ≠ '"' ∧ c ≠ '\'') (hnext : next.Outside) : r.Outside := by
  rintro mark read hphase
  obtain ⟨tuples, phase⟩ := r
  obtain rfl : phase = .quoted mark read := hphase
  have hmark : c ≠ mark := by
    rintro rfl
    exact hr.mark.elim hc.1 hc.2
  rw [step_quoted, if_neg hmark] at h
  obtain rfl := Option.some.inj h
  exact hnext _ _ rfl

/-- What is no double quote leads into double quotes only from inside them. -/
theorem insideDouble_of_step_ne {r next : Reading} {c : Char} (h : r.step c = some next)
    (hc : c ≠ '"') (hnext : next.InsideDouble) : r.InsideDouble := by
  obtain ⟨read, hphase⟩ := hnext
  rcases place_cases r with ⟨tuples, rfl⟩ | ⟨tuples, e, hbehind⟩ | ⟨tuples, mark, done, rfl⟩
  · rcases outside_of_enter h with hout | hquoted
    · exact absurd hphase (hout _ _)
    · exact absurd (Phase.quoted.inj (hquoted.symm.trans hphase)).1 hc
  · exact absurd hphase (hbehind.outside h _ _)
  · rw [step_quoted] at h
    split at h
    · obtain rfl := Option.some.inj h
      cases hphase
    · obtain rfl := Option.some.inj h
      obtain rfl := (Phase.quoted.inj hphase).1
      exact ⟨done, rfl⟩

/-- Reading a text that holds no double quote leads into double quotes only from inside them. -/
theorem insideDouble_of_run {cs : List Char} {r next : Reading} (h : r.run cs = some next)
    (hcs : '"' ∉ cs) (hnext : next.InsideDouble) : r.InsideDouble := by
  induction cs generalizing r with
  | nil =>
    obtain rfl := Option.some.inj h
    exact hnext
  | cons c rest ih =>
    rw [List.mem_cons, not_or] at hcs
    obtain ⟨middle, hstep, hrest⟩ := Option.bind_eq_some_iff.mp h
    exact insideDouble_of_step_ne hstep (Ne.symm hcs.1) (ih hrest hcs.2)

/-- An escaped character is read inside double quotes only if it is no quote, and from inside
them. -/
theorem insideDouble_of_run_escapeChar {c : Char} {r next : Reading}
    (h : r.run (Text.escapeChar c) = some next) (hnext : next.InsideDouble) :
    r.InsideDouble ∧ c ≠ '"' := by
  by_cases hc : c = '"'
  · subst hc
    obtain ⟨middle, hslash, hrest⟩ := Option.bind_eq_some_iff.mp h
    obtain ⟨last, hquote, hlast⟩ := Option.bind_eq_some_iff.mp hrest
    obtain rfl := Option.some.inj hlast
    exact absurd (phase_eq_item_of_step hquote hnext) (phase_ne_item_of_step hslash)
  · exact ⟨insideDouble_of_run h (Text.quote_not_mem_escapeChar hc) hnext, hc⟩

/-- An escaped text is read inside double quotes only if it has no quote, and from inside them. -/
theorem insideDouble_of_run_escaped {cs : List Char} {r next : Reading}
    (h : r.run (cs.flatMap Text.escapeChar) = some next) (hnext : next.InsideDouble) :
    r.InsideDouble ∧ '"' ∉ cs := by
  induction cs generalizing r with
  | nil =>
    obtain rfl := Option.some.inj h
    exact ⟨hnext, List.not_mem_nil⟩
  | cons c rest ih =>
    rw [List.flatMap_cons, run_append] at h
    obtain ⟨middle, hfirst, hrest⟩ := Option.bind_eq_some_iff.mp h
    obtain ⟨hmiddle, hnone⟩ := ih hrest
    obtain ⟨hr, hc⟩ := insideDouble_of_run_escapeChar hfirst hmiddle
    exact ⟨hr, by simp [Ne.symm hc, hnone]⟩

/-- Reading a text leads out of quotes only from outside, and then this holds. -/
def Clear (cs : List Char) (p : Prop) : Prop :=
  ∀ r next : Reading, Reached r → r.run cs = some next → next.Outside → r.Outside ∧ p

/-- One text behind another is read back to front. -/
theorem Clear.append {a b : List Char} {p q : Prop} (ha : Clear a p) (hb : Clear b q) :
    Clear (a ++ b) (p ∧ q) := by
  intro r next hr hrun hnext
  rw [run_append] at hrun
  obtain ⟨middle, hfirst, hrest⟩ := Option.bind_eq_some_iff.mp hrun
  obtain ⟨hmiddle, hq⟩ := hb middle next (hr.run hfirst) hrest hnext
  obtain ⟨hout, hp⟩ := ha r middle hr hfirst hmiddle
  exact ⟨hout, hp, hq⟩

/-- What follows from what holds, holds. -/
theorem Clear.imp {cs : List Char} {p q : Prop} (h : Clear cs p) (hpq : p → q) : Clear cs q := by
  intro r next hr hrun hnext
  obtain ⟨hout, hp⟩ := h r next hr hrun hnext
  exact ⟨hout, hpq hp⟩

/-- A text without quotes is read outside them if it is read to outside them. -/
theorem clear_of_no_quotes {cs : List Char} (hcs : ∀ c ∈ cs, c ≠ '"' ∧ c ≠ '\'') :
    Clear cs True := by
  induction cs with
  | nil =>
    intro r next hr hrun hnext
    obtain rfl := Option.some.inj hrun
    exact ⟨hnext, trivial⟩
  | cons c rest ih =>
    obtain ⟨hc, hrest⟩ := List.forall_mem_cons.mp hcs
    intro r next hr hrun hnext
    obtain ⟨middle, hstep, hbehind⟩ := Option.bind_eq_some_iff.mp hrun
    have hone : r.run [c] = some middle := by rw [run_cons, hstep, Option.bind_some, run_nil]
    have hmiddle := (ih hrest middle next (hr.run hone) hbehind hnext).1
    exact ⟨outside_of_step hr hstep hc hmiddle, trivial⟩

/-- A bare run is read outside quotes if it is read to outside them. -/
theorem clear_of_bare {cs : List Char} (h : Bare cs) : Clear cs True := by
  refine clear_of_no_quotes fun c hc => ⟨?_, ?_⟩
  · rintro rfl
    exact (h.2 _ hc).2 (by decide)
  · rintro rfl
    exact (h.2 _ hc).2 (by decide)

/-- The notation of a name is read to outside quotes only if the name has no double quote. -/
theorem clear_leafChars (cs : List Char) : Clear (leafChars cs) ('"' ∉ cs) := by
  rw [leafChars]
  split
  · intro r next hr hrun hnext
    rw [Text.quoteChars, run_append] at hrun
    obtain ⟨last, hbefore, hclose⟩ := Option.bind_eq_some_iff.mp hrun
    obtain ⟨first, hopen, hescaped⟩ := Option.bind_eq_some_iff.mp hbefore
    obtain ⟨closed, hquote, hclosed⟩ := Option.bind_eq_some_iff.mp hclose
    obtain rfl := Option.some.inj hclosed
    obtain ⟨hfirst, hnone⟩ :=
      insideDouble_of_run_escaped hescaped (insideDouble_of_step hquote hnext)
    refine ⟨fun mark read hphase => ?_, hnone⟩
    rw [phase_eq_item_of_step hopen hfirst] at hphase
    cases hphase
  · next hquotes =>
    have hbare := Notation.bare_of_needsQuotes (Bool.eq_false_iff.mpr hquotes)
    exact (clear_of_bare hbare).imp fun _ hmem => (hbare.2 _ hmem).2 (by decide)

/-- The notation of a list of items is read to outside quotes only if what each item asks for
holds. -/
theorem clear_itemsChars {items : List TypeExpr} {p : TypeExpr → Prop}
    (h : ∀ item ∈ items, Clear (renderChars item) (p item)) :
    Clear (itemsChars items) (∀ item ∈ items, p item) := by
  induction items with
  | nil => exact (clear_of_no_quotes (by simp [itemsChars])).imp fun _ => by simp
  | cons item rest ih =>
    obtain ⟨hitem, hrest⟩ := List.forall_mem_cons.mp h
    rw [itemsChars]
    have hbehind : Clear (renderRest rest) (∀ item ∈ rest, p item) := by
      cases rest with
      | nil => exact (clear_of_no_quotes (by simp [renderRest])).imp fun _ => by simp
      | cons next rest =>
        have hcomma : Clear [',', ' '] True := clear_of_no_quotes (by simp)
        exact (hcomma.append (ih hrest)).imp And.right
    exact (hitem.append hbehind).imp List.forall_mem_cons.mpr

/-- The notation of a type is read to outside quotes only if no name has a double quote. -/
theorem clear_renderChars {e : TypeExpr}
    (hbare : ∀ text, .literal text ∈ e.atoms → Bare text.toList) :
    Clear (renderChars e) (∀ name, .leaf name ∈ e.atoms → '"' ∉ name.toList) := by
  induction e using TypeExpr.ind with
  | leaf name =>
    refine (clear_leafChars name.toList).imp fun h other hother => ?_
    obtain rfl := leaf.inj (List.mem_singleton.mp hother)
    exact h
  | literal text =>
    refine (clear_of_bare (hbare text (List.mem_singleton_self _))).imp fun _ name hname => ?_
    cases List.mem_singleton.mp hname
  | tuple items ih =>
    have hitems := clear_itemsChars fun item hitem => ih item hitem fun text htext =>
      hbare text (by rw [atoms_tuple]; exact List.mem_flatMap.mpr ⟨item, hitem, htext⟩)
    have hopen : Clear ['('] True := clear_of_no_quotes (by simp)
    have hclose : Clear (lastComma items ++ [')']) True := by
      refine clear_of_no_quotes ?_
      rcases Notation.lastComma_cases items with hlast | hlast
      · simp [hlast]
      · simp [hlast]
    rw [Notation.renderChars_tuple, List.append_assoc]
    refine (hopen.append (hitems.append hclose)).imp fun h name hname => ?_
    rw [atoms_tuple] at hname
    obtain ⟨item, hitem, hatom⟩ := List.mem_flatMap.mp hname
    exact h.2.1 item hitem name hatom

end TypeSieve.TypeExpr.Reading
