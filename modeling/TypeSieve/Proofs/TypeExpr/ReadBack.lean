import TypeSieve.Proofs.Json.NumberTexts
import TypeSieve.Proofs.Text.Quoting
import TypeSieve.Proofs.TypeExpr.Atoms
import TypeSieve.Proofs.TypeExpr.Soundness

/-!
# What the notation of a type is read as

Unless a name holds a double quote, the notation of a type is derivable again, with the tuples where
they were: a quoted name is read as its escaped form, and anything shown bare as the name or number
that it spells.
-/

namespace TypeSieve

namespace TypeExpr

mutual

/-- The type that the notation of a type stands for. -/
def readBack : TypeExpr → TypeExpr
  | .leaf name =>
    if needsQuotes name.toList then .leaf (String.ofList (name.toList.flatMap Text.escapeChar))
    else ofBare name
  | .literal text => ofBare text
  | .tuple items => .tuple (readBackItems items)

/-- The types that the notations of a list of types stand for. -/
def readBackItems : List TypeExpr → List TypeExpr
  | [] => []
  | item :: rest => readBack item :: readBackItems rest

end

/-- A list of types is read back item by item. -/
theorem readBackItems_eq_map (items : List TypeExpr) :
    readBackItems items = items.map readBack := by
  induction items with
  | nil => rfl
  | cons item rest ih => rw [readBackItems, ih, List.map_cons]

end TypeExpr

namespace Notation

open TypeExpr (renderChars renderRest leafChars needsQuotes readBack)

/-- An atom whose notation is one atom: a name without double quotes, or a literal that is a bare
run. -/
inductive Readable : TypeExpr → Prop
  | name {name : String} (hquote : '"' ∉ name.toList) : Readable (.leaf name)
  | literal {text : String} (hbare : Bare text.toList) : Readable (.literal text)

/-- A name that needs no quotes is a bare run. -/
theorem bare_of_needsQuotes {cs : List Char} (h : needsQuotes cs = false) : Bare cs := by
  rw [needsQuotes, Bool.or_eq_false_iff] at h
  obtain ⟨hdigits, hbare⟩ := h
  rw [bare_iff]
  constructor
  · rintro rfl
    cases hdigits
  · intro c hc
    simpa using List.any_eq_false.mp hbare c hc

/-- The characters of numbers are bare. -/
theorem isBare_of_numberChar {c : Char} (hc : Json.NumberChar c) : TypeExpr.isBare c = true := by
  rcases hc with hdigit | hsign
  · -- No blank and no delimiter stands among the digits.
    have hother :
        (Text.blanks ++ ['(', ')', ',', '"', '\'']).all (fun d => !Text.isDigit d) = true := by
      decide
    have hnone : c ∉ Text.blanks ++ ['(', ')', ',', '"', '\''] := by
      intro hmem
      have hnot := List.all_eq_true.mp hother c hmem
      rw [hdigit] at hnot
      cases hnot
    rw [List.mem_append, not_or] at hnone
    have hbare : Bare [c] := ⟨List.cons_ne_nil _ _, by simpa using hnone⟩
    simpa using (bare_iff [c]).mp hbare
  · simp only [List.mem_cons, List.not_mem_nil, or_false] at hsign
    rcases hsign with rfl | rfl | rfl | rfl <;> decide

/-- The text of a number is a bare run. -/
theorem bare_of_numberText {cs : List Char} (h : Json.NumberText cs) : Bare cs := by
  rw [bare_iff]
  exact ⟨h.1, fun c hc => isBare_of_numberChar (h.2 c hc)⟩

/-- The canonical text of what spells a number is the text of a number. -/
theorem SpellsNumber.numberText_compact {cs : List Char} {value : Json}
    (h : SpellsNumber cs value) : Json.NumberText value.compact.toList := by
  rw [Json.compact, String.toList_ofList]
  obtain ⟨-, ⟨n, rfl⟩ | ⟨x, rfl⟩⟩ := h
  · exact Json.numberText_integerChars n
  · exact Json.numberText_doubleChars x

/-- The canonical text of what spells a number is a bare run. -/
theorem SpellsNumber.bare_compact {cs : List Char} {value : Json} (h : SpellsNumber cs value) :
    Bare value.compact.toList := bare_of_numberText h.numberText_compact

/-- The notation of a readable atom is an atom and stands for what is read back. -/
theorem Readable.atom {atom : TypeExpr} (h : Readable atom) :
    Atom (renderChars atom) (readBack atom) := by
  cases h with
  | @name name hquote =>
    rw [renderChars, leafChars, readBack]
    split
    · exact .quoted (Or.inl rfl) (Text.quote_not_mem_flatMap_escapeChar hquote)
    · next hquotes =>
      have hbare := bare_of_needsQuotes (Bool.eq_false_iff.mpr hquotes)
      simpa using hbare.atom
  | @literal text hbare => simpa [renderChars, readBack] using hbare.atom

/-- The notation of the items of a tuple, with a comma and a space between them. -/
def itemsChars : List TypeExpr → List Char
  | [] => []
  | item :: rest => renderChars item ++ renderRest rest

/-- The comma behind the only item of a tuple. -/
def lastComma : List TypeExpr → List Char
  | [_] => [',']
  | _ => []

/-- There is one comma or none behind the last item of a tuple. -/
theorem lastComma_cases (items : List TypeExpr) :
    lastComma items = [] ∨ lastComma items = [','] := by
  unfold lastComma
  split
  · exact Or.inr rfl
  · exact Or.inl rfl

/-- A tuple is shown as its items between parentheses, with a comma behind an only item. -/
theorem renderChars_tuple (items : List TypeExpr) :
    renderChars (.tuple items) = '(' :: itemsChars items ++ lastComma items ++ [')'] := by
  rcases items with - | ⟨item, - | ⟨next, rest⟩⟩
  · simp [renderChars, itemsChars, lastComma]
  · simp [renderChars, renderRest, itemsChars, lastComma]
  · simp [renderChars, itemsChars, lastComma]

/-- Further items are shown behind a comma and a space. -/
theorem renderRest_cons (item : TypeExpr) (rest : List TypeExpr) :
    renderRest (item :: rest) = ',' :: ' ' :: itemsChars (item :: rest) := rfl

/-- Spacing before an expression belongs to it. -/
theorem expr_prepend_spacing {before cs : List Char} {e : TypeExpr} (hbefore : Spacing before)
    (he : Expr cs e) : Expr (before ++ cs) e := by
  cases he with
  | tuple hmiddle htuple hafter =>
    rw [← List.append_assoc, ← List.append_assoc]
    exact .tuple (hbefore.append hmiddle) htuple hafter
  | atom hmiddle hatom hafter =>
    rw [← List.append_assoc, ← List.append_assoc]
    exact .atom (hbefore.append hmiddle) hatom hafter

/-- A space is spacing. -/
theorem spacing_space : Spacing [' '] := by simp [Spacing]

/-- Items whose notations are derivable are derivable together. -/
theorem items_itemsChars {f : TypeExpr → TypeExpr} {before : List Char} {item : TypeExpr}
    {rest : List TypeExpr} (hbefore : Spacing before)
    (h : ∀ e ∈ item :: rest, Expr (renderChars e) (f e)) :
    Items (before ++ itemsChars (item :: rest)) ((item :: rest).map f) := by
  induction rest generalizing before item with
  | nil =>
    have hitem := expr_prepend_spacing hbefore (h item (List.mem_cons_self ..))
    simpa [itemsChars, renderRest] using Items.one hitem
  | cons next rest ih =>
    have hitem := expr_prepend_spacing hbefore (h item (List.mem_cons_self ..))
    have hrest := ih spacing_space fun e he => h e (List.mem_cons_of_mem _ he)
    rw [itemsChars, renderRest_cons, ← List.append_assoc]
    exact .more hitem hrest

/-- The notation of a type with readable atoms is derivable as what is read back. -/
theorem expr_readBack {e : TypeExpr} (h : ∀ atom ∈ e.atoms, Readable atom) :
    Expr (renderChars e) (readBack e) := by
  induction e using TypeExpr.ind with
  | leaf name => exact TypeExpr.Reading.expr_of_atom .nil (h _ (List.mem_singleton_self _)).atom
  | literal text => exact TypeExpr.Reading.expr_of_atom .nil (h _ (List.mem_singleton_self _)).atom
  | tuple items ih =>
    rw [TypeExpr.forall_mem_atoms_tuple] at h
    have hitems : ∀ item ∈ items, Expr (renderChars item) (readBack item) := fun item hitem =>
      ih item hitem (h item hitem)
    rw [readBack, TypeExpr.readBackItems_eq_map]
    refine TypeExpr.Reading.expr_of_tuple .nil ?_
    rw [renderChars_tuple]
    rcases items with - | ⟨item, - | ⟨next, rest⟩⟩
    · exact .empty .nil
    · simpa [lastComma] using Tuple.trailing (items_itemsChars .nil hitems) .nil
    · simpa [lastComma] using Tuple.plain (items_itemsChars .nil hitems)

end Notation

end TypeSieve
