import TypeSieve.Proofs.TypeExpr.Derivable
import TypeSieve.Proofs.TypeExpr.Seams

/-!
# Which types are read back from their notation

The notation of an atom is read as this atom if the atom is a bare name that spells no number, a
quoted name without escapes, or a number in its canonical text.

A derivation of the notation of a type as this type cannot go astray: its parts and those of the
notation are separated at the same places, part by part from the left, since each is followed by a
comma or a closing parenthesis in both. Badly shown atoms therefore never make up for each other,
and a type is read back exactly when each of its atoms is.
-/

namespace TypeSieve

namespace Notation

open TypeExpr (renderChars renderRest leafChars needsQuotes readBack)

/-- The notation of an atom is read as the atom. -/
inductive Legible : TypeExpr → Prop
  /-- A name that is shown without quotes, and is no number. -/
  | bare {name : String} (hquotes : needsQuotes name.toList = false)
    (hnumber : ∀ value, ¬ SpellsNumber name.toList value) : Legible (.leaf name)
  /-- A name that is shown between quotes as it is. -/
  | quoted {name : String} (hquotes : needsQuotes name.toList = true)
    (hverbatim : Text.quote name = "\"" ++ name ++ "\"") : Legible (.leaf name)
  /-- A number in the text that it is written with. -/
  | number {text : String} {value : Json} (hnumber : SpellsNumber text.toList value)
    (hcanonical : value.compact = text) : Legible (.literal text)

/-- A name that quoting keeps as it is has no escapes. -/
theorem verbatim_iff (name : String) :
    Text.quote name = "\"" ++ name ++ "\"" ↔ name.toList.flatMap Text.escapeChar = name.toList := by
  rw [← String.toList_inj, Text.quote, Text.quoteChars, String.toList_ofList]
  simp

/-- The notation of a legible atom is one atom. -/
theorem Legible.readable {atom : TypeExpr} (h : Legible atom) : Readable atom := by
  cases h with
  | bare hquotes hnumber =>
    refine .name fun hmem => ?_
    exact ((bare_of_needsQuotes hquotes).2 _ hmem).2 (by decide)
  | quoted hquotes hverbatim =>
    exact .name (Text.quote_not_mem_of_flatMap_escapeChar ((verbatim_iff _).mp hverbatim))
  | @number text value hnumber hcanonical =>
    have hbare := hnumber.bare_compact
    rw [hcanonical] at hbare
    exact .literal hbare

/-- A legible atom is read back as it was. -/
theorem Legible.readBack_eq {atom : TypeExpr} (h : Legible atom) : readBack atom = atom := by
  cases h with
  | @bare name hquotes hnumber =>
    have hname := ofBare_eq_leaf hnumber
    rw [String.ofList_toList] at hname
    rw [readBack, hquotes, if_neg Bool.false_ne_true, hname]
  | @quoted name hquotes hverbatim =>
    rw [readBack, hquotes, if_pos rfl, (verbatim_iff name).mp hverbatim, String.ofList_toList]
  | @number text value hnumber hcanonical =>
    have htext := hnumber.ofBare_eq
    rw [String.ofList_toList] at htext
    rw [readBack, htext, hcanonical]

/-- A type with legible atoms is read back as it was. -/
theorem readBack_eq_self {e : TypeExpr} (h : ∀ atom ∈ e.atoms, Legible atom) : readBack e = e := by
  induction e using TypeExpr.ind with
  | leaf name => exact (h _ (List.mem_singleton_self _)).readBack_eq
  | literal text => exact (h _ (List.mem_singleton_self _)).readBack_eq
  | tuple items ih =>
    rw [TypeExpr.forall_mem_atoms_tuple] at h
    have hitems : ∀ item ∈ items, readBack item = item :=
      fun item hitem => ih item hitem (h item hitem)
    rw [readBack, TypeExpr.readBackItems_eq_map, List.map_congr_left hitems, List.map_id']

/-- An atom begins visibly. -/
theorem Atom.beginsVisibly {cs : List Char} {atom : TypeExpr} (h : Atom cs atom) :
    BeginsVisibly cs := by
  cases h with
  | quoted hmark hcs =>
    refine ⟨_, _, rfl, ?_⟩
    rcases hmark with rfl | rfl
    · decide
    · decide
  | number hbare hnumber => exact hbare.beginsVisibly
  | name hbare hnumber => exact hbare.beginsVisibly

/-- The notation of a name begins visibly. -/
theorem beginsVisibly_leafChars (cs : List Char) : BeginsVisibly (leafChars cs) := by
  rw [leafChars]
  split
  · exact ⟨'"', _, rfl, by decide⟩
  · next hquotes => exact (bare_of_needsQuotes (Bool.eq_false_iff.mpr hquotes)).beginsVisibly

/-- The notation of an atom begins visibly. -/
theorem Atom.beginsVisibly_renderChars {cs : List Char} {atom : TypeExpr} (h : Atom cs atom) :
    BeginsVisibly (renderChars atom) := by
  cases h with
  | quoted hmark hcs => exact beginsVisibly_leafChars _
  | number hbare hnumber => exact hnumber.bare_compact.beginsVisibly
  | name hbare hnumber => exact beginsVisibly_leafChars _

/-- A tuple begins visibly. -/
theorem Tuple.beginsVisibly {cs : List Char} {items : List TypeExpr} (h : Tuple cs items) :
    BeginsVisibly cs := by
  cases h with
  | empty hspacing => exact ⟨'(', _, rfl, by decide⟩
  | plain hitems => exact ⟨'(', _, rfl, by decide⟩
  | trailing hitems hafter => exact ⟨'(', _, rfl, by decide⟩

/-- The notation of a tuple begins visibly. -/
theorem beginsVisibly_renderChars_tuple (items : List TypeExpr) :
    BeginsVisibly (renderChars (.tuple items)) := by
  rw [renderChars_tuple]
  exact ⟨'(', _, rfl, by decide⟩

/-- An atom that stands for itself in the place of its own notation is this notation, and
legible. -/
theorem Atom.eq_renderChars {body s t : List Char} {atom : TypeExpr} (hatom : Atom body atom)
    (hs : EndsRun s) (ht : EndsRun t) (h : body ++ s = renderChars atom ++ t) :
    body = renderChars atom ∧ Legible atom := by
  cases hatom with
  | @quoted mark cs hmark hcs =>
    rw [renderChars, leafChars, String.toList_ofList] at h ⊢
    cases hquotes : needsQuotes cs with
    | false =>
      rw [hquotes, if_neg Bool.false_ne_true] at h
      exact absurd h.symm ((bare_of_needsQuotes hquotes).append_ne_quote hmark)
    | true =>
      rw [hquotes, if_pos rfl, Text.quoteChars] at h
      simp only [List.cons_append, List.append_assoc, List.nil_append, List.cons.injEq] at h
      obtain ⟨rfl, h⟩ := h
      have hverbatim := quoted_append_inj hcs (Text.quote_not_mem_flatMap_escapeChar hcs) h
      refine ⟨?_, .quoted ?_ ?_⟩
      · rw [if_pos rfl, Text.quoteChars, ← hverbatim]
      · rw [String.toList_ofList, hquotes]
      · rw [verbatim_iff, String.toList_ofList]
        exact hverbatim.symm
  | @number cs value hbare hnumber =>
    rw [renderChars] at h ⊢
    obtain ⟨hcanonical, -⟩ := hbare.append_inj hnumber.bare_compact hs ht h
    rw [hcanonical] at hnumber
    exact ⟨hcanonical, .number hnumber rfl⟩
  | name hbare hnumber =>
    rw [renderChars, leafChars, String.toList_ofList] at h ⊢
    cases hquotes : needsQuotes body with
    | true =>
      rw [hquotes, if_pos rfl] at h
      exact absurd h (hbare.append_ne_quote (Or.inl rfl))
    | false =>
      refine ⟨by rw [if_neg Bool.false_ne_true], .bare ?_ ?_⟩
      · rw [String.toList_ofList, hquotes]
      · rwa [String.toList_ofList]

/-- Behind some spacing, a derivation of a type in the place of its notation is exactly as long, and
the atoms of the type are legible. -/
def Aligned (e : TypeExpr) : Prop :=
  ∀ {cs before s t : List Char}, Expr cs e → Spacing before → AtSeam s → AtSeam t →
    cs ++ s = before ++ renderChars e ++ t → cs = before ++ renderChars e ∧
    ∀ atom ∈ e.atoms, Legible atom

/-- Without the spacing around them, an expression and a notation begin and end at the same
places. -/
theorem eq_of_spacing_around {left body after before shown s t : List Char} {P : Prop}
    (hleft : Spacing left) (hafter : Spacing after) (hbefore : Spacing before)
    (hbody : BeginsVisibly body) (hshown : BeginsVisibly shown) (ht : AtSeam t)
    (h : left ++ body ++ after ++ s = before ++ shown ++ t)
    (hinner : body ++ (after ++ s) = shown ++ t → body = shown ∧ P) :
    left ++ body ++ after = before ++ shown ∧ P := by
  simp only [List.append_assoc] at h ⊢
  obtain ⟨rfl, hbodies⟩ :=
    append_inj_of_spacing hleft hbefore (hbody.append _) (hshown.append _) h
  obtain ⟨rfl, hp⟩ := hinner hbodies
  have hnil := eq_nil_of_spacing_append hafter ht (List.append_cancel_left hbodies)
  rw [hnil, List.append_nil]
  exact ⟨rfl, hp⟩

/-- An atom is aligned with its notation. -/
theorem aligned_of_atoms {e : TypeExpr} (hself : e.atoms = [e])
    (htuple : ∀ items, e ≠ .tuple items) : Aligned e := by
  intro cs before s t he hbefore hs ht h
  cases he with
  | tuple hleft hbody hafter => exact absurd rfl (htuple _)
  | atom hleft hatom hafter =>
    refine eq_of_spacing_around hleft hafter hbefore hatom.beginsVisibly
      hatom.beginsVisibly_renderChars ht h fun hbodies => ?_
    obtain ⟨heq, hlegible⟩ := hatom.eq_renderChars (endsRun_of_spacing_append hafter hs)
      (endsRun_of_spacing_append .nil ht) hbodies
    rw [hself]
    exact ⟨heq, by simpa using hlegible⟩

/-- Further items or the end of a tuple begin at a seam. -/
theorem atSeam_renderRest_append (rest : List TypeExpr) {t : List Char} (ht : AtSeam t) :
    AtSeam (renderRest rest ++ t) := by
  cases rest with
  | nil => exact ht
  | cons item rest =>
    intro c hc
    obtain rfl := Option.some.inj hc
    exact Or.inl rfl

/-- Aligned items are aligned together, from the first to the last. -/
theorem Items.eq_itemsChars {items : List TypeExpr} (haligned : ∀ item ∈ items, Aligned item)
    {cs before s t : List Char} (h : Items cs items) (hbefore : Spacing before) (hs : AtSeam s)
    (ht : AtSeam t) (heq : cs ++ s = before ++ itemsChars items ++ t) :
    cs = before ++ itemsChars items ∧ ∀ item ∈ items, ∀ atom ∈ item.atoms, Legible atom := by
  induction items generalizing cs before with
  | nil => cases h
  | cons item rest ih =>
    obtain ⟨hitem, hrest⟩ := List.forall_mem_cons.mp haligned
    rw [itemsChars] at heq ⊢
    cases h with
    | one he =>
      rw [renderRest, List.append_nil] at heq ⊢
      obtain ⟨hcs, hatoms⟩ := hitem he hbefore hs ht heq
      exact ⟨hcs, by simpa using hatoms⟩
    | @more first behind _ _ he hbehind =>
      have hseam : AtSeam (',' :: behind ++ s) := fun c hc => Or.inl (Option.some.inj hc).symm
      have hsplit : first ++ (',' :: behind ++ s) =
          before ++ renderChars item ++ (renderRest rest ++ t) := by
        simpa [List.append_assoc] using heq
      obtain ⟨rfl, hatoms⟩ := hitem he hbefore hseam (atSeam_renderRest_append rest ht) hsplit
      cases rest with
      | nil => cases hbehind
      | cons next rest =>
        have hcomma := List.append_cancel_left hsplit
        rw [renderRest_cons] at hcomma ⊢
        have hnext : behind ++ s = [' '] ++ itemsChars (next :: rest) ++ t :=
          (List.cons.inj hcomma).2
        obtain ⟨rfl, hmore⟩ := ih hrest hbehind spacing_space hnext
        refine ⟨by simp, ?_⟩
        exact List.forall_mem_cons.mpr ⟨hatoms, hmore⟩

/-- A tuple of aligned items in the place of its notation is this notation, with legible atoms
only. -/
theorem Tuple.eq_renderChars {items : List TypeExpr} (haligned : ∀ item ∈ items, Aligned item)
    {body s t : List Char} (h : Tuple body items)
    (heq : body ++ s = renderChars (.tuple items) ++ t) :
    body = renderChars (.tuple items) ∧ ∀ item ∈ items, ∀ atom ∈ item.atoms, Legible atom := by
  have hclose : ∀ u, AtSeam (')' :: u) := fun u c hc => Or.inr (Option.some.inj hc).symm
  have hcomma : ∀ u, AtSeam (',' :: u) := fun u c hc => Or.inl (Option.some.inj hc).symm
  have hend : AtSeam (lastComma items ++ ')' :: t) := by
    rcases lastComma_cases items with hlast | hlast
    · rw [hlast]
      exact hclose t
    · rw [hlast]
      exact hcomma (')' :: t)
  rw [renderChars_tuple] at heq ⊢
  cases h with
  | @empty spaces hspacing =>
    have hnil :=
      eq_nil_of_spacing_append hspacing (hclose t) (by simpa [itemsChars, lastComma] using heq)
    subst hnil
    exact ⟨rfl, by simp⟩
  | @plain cs _ hitems =>
    have hinner : cs ++ (')' :: s) = [] ++ itemsChars items ++ (lastComma items ++ ')' :: t) := by
      simpa using heq
    obtain ⟨rfl, hatoms⟩ := hitems.eq_itemsChars haligned .nil (hclose s) hend hinner
    have hbehind := List.append_cancel_left hinner
    rcases lastComma_cases items with hlast | hlast
    · exact ⟨by simp [hlast], hatoms⟩
    · rw [hlast] at hbehind
      exact absurd (List.cons.inj hbehind).1 (by decide)
  | @trailing cs after _ hitems hafter =>
    have hinner : cs ++ (',' :: (after ++ ')' :: s)) =
        [] ++ itemsChars items ++ (lastComma items ++ ')' :: t) := by
      simpa using heq
    obtain ⟨rfl, hatoms⟩ := hitems.eq_itemsChars haligned .nil (hcomma _) hend hinner
    have hbehind := List.append_cancel_left hinner
    rcases lastComma_cases items with hlast | hlast
    · rw [hlast] at hbehind
      exact absurd (List.cons.inj hbehind).1 (by decide)
    · rw [hlast] at hbehind
      have hnil := eq_nil_of_spacing_append hafter (hclose t) (List.cons.inj hbehind).2
      subst hnil
      exact ⟨by simp [hlast], hatoms⟩

/-- Every type is aligned with its notation. -/
theorem aligned (e : TypeExpr) : Aligned e := by
  induction e using TypeExpr.ind with
  | leaf name => exact aligned_of_atoms rfl (by simp)
  | literal text => exact aligned_of_atoms rfl (by simp)
  | tuple items ih =>
    intro cs before s t he hbefore hs ht h
    cases he with
    | atom hleft hatom hafter => cases hatom
    | tuple hleft hbody hafter =>
      refine eq_of_spacing_around hleft hafter hbefore hbody.beginsVisibly
        (beginsVisibly_renderChars_tuple items) ht h fun hbodies => ?_
      obtain ⟨heq, hatoms⟩ := hbody.eq_renderChars ih hbodies
      exact ⟨heq, TypeExpr.forall_mem_atoms_tuple.mpr hatoms⟩

/-- The notation of a type is derivable as this type exactly if the atoms of the type are
legible. -/
theorem expr_renderChars_iff (e : TypeExpr) :
    Expr (renderChars e) e ↔ ∀ atom ∈ e.atoms, Legible atom := by
  constructor
  · intro h
    have hseam : AtSeam [] := by simp [AtSeam]
    exact (aligned e h .nil hseam hseam rfl).2
  · intro h
    have he := expr_readBack fun atom hatom => (h atom hatom).readable
    rwa [readBack_eq_self h] at he

/-- Trimming keeps a bare run. -/
theorem Bare.trimChars_eq {cs : List Char} (h : Bare cs) : Text.trimChars cs = cs := by
  refine Text.trimChars_eq_self ?_ ?_
  · exact fun c hc => (h.2 c (List.mem_of_mem_head? hc)).1
  · exact fun c hc => (h.2 c (List.mem_of_getLast? hc)).1

/-- A literal that some text is derivable as is a bare run. -/
theorem bare_of_expr_literal {cs : List Char} {text : String} (h : Expr cs (.literal text)) :
    Bare text.toList := by
  cases h with
  | atom hbefore hatom hafter =>
    cases hatom with
    | number hbare hnumber => exact hnumber.bare_compact

/-- Trimming keeps the notation of a type that is no literal with blanks at its ends. -/
theorem trimChars_renderChars {e : TypeExpr}
    (hbare : ∀ text, e = .literal text → Bare text.toList) :
    Text.trimChars (renderChars e) = renderChars e := by
  cases e with
  | leaf name =>
    rw [renderChars, leafChars]
    split
    · exact Text.trimChars_enclosed (by decide) (by decide) _
    · next hquotes => exact (bare_of_needsQuotes (Bool.eq_false_iff.mpr hquotes)).trimChars_eq
  | literal text => exact (hbare text rfl).trimChars_eq
  | tuple items =>
    rw [renderChars_tuple, List.cons_append]
    exact Text.trimChars_enclosed (by decide) (by decide) _

end Notation

namespace TypeExpr

/-- Unless a literal has blanks at its ends, reading the notation of a type is deriving it. -/
theorem parse_render_eq_ok_iff {e : TypeExpr}
    (hbare : ∀ text, e = .literal text → Notation.Bare text.toList) (found : TypeExpr) :
    parse e.render = .ok found ↔ Notation.Expr (renderChars e) found := by
  rw [parse_eq_ok_iff, ofChars?_eq_some_iff, render, String.toList_ofList,
    Notation.trimChars_renderChars hbare]

/-- A type is read back from its notation exactly if each of its names is bare and no number, or
quoted without escapes, and each of its literals is a number in its canonical text. -/
theorem parse_render_iff (e : TypeExpr) :
    parse e.render = .ok e ↔ ∀ atom ∈ e.atoms, Notation.Legible atom := by
  rw [← Notation.expr_renderChars_iff]
  constructor
  · intro h
    refine (parse_render_eq_ok_iff (fun text heq => ?_) e).mp h
    rw [parse_eq_ok_iff, ofChars?_eq_some_iff, heq] at h
    exact Notation.bare_of_expr_literal h
  · intro h
    refine (parse_render_eq_ok_iff (fun text heq => ?_) e).mpr h
    rw [heq] at h
    exact Notation.bare_of_expr_literal h

end TypeExpr

end TypeSieve
