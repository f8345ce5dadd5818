import TypeSieve.TypeExpr.Parser

/-!
# The grammar of tuple notation

Which texts are expressions and which types they stand for, as derivations and without a reader:

* an expression is a tuple or an atom with spacing on both sides;
* a tuple is empty but for spacing, or it holds expressions separated by commas, with an optional
  comma and spacing behind the last;
* an atom is a text without the quote between two quotes of one kind, or a run of bare characters.
-/

namespace TypeSieve.Notation

/-- A run of spaces, tabs, carriage returns and line feeds. -/
def Spacing (cs : List Char) : Prop := ∀ c ∈ cs, c ∈ [' ', '\t', '\r', '\n']

/-- One or more characters that are neither blank nor a parenthesis, a comma or a quote. -/
def Bare (cs : List Char) : Prop :=
  cs ≠ [] ∧ ∀ c ∈ cs, c ∉ Text.blanks ∧ c ∉ ['(', ')', ',', '"', '\'']

/-- A text spells a number in JSON. -/
def SpellsNumber (cs : List Char) (value : Json) : Prop :=
  Json.ofChars? cs = some value ∧ ((∃ n, value = .integer n) ∨ ∃ x, value = .double x)

/-- A text is an atom. -/
inductive Atom : List Char → TypeExpr → Prop
  /-- What stands between quotes is a name as it is. -/
  | quoted {mark : Char} {cs : List Char} (hmark : mark = '"' ∨ mark = '\'') (hcs : mark ∉ cs) :
    Atom (mark :: cs ++ [mark]) (.leaf (String.ofList cs))
  /-- A number is a literal in its canonical text. -/
  | number {cs : List Char} {value : Json} (hbare : Bare cs) (hnumber : SpellsNumber cs value) :
    Atom cs (.literal value.compact)
  | name {cs : List Char} (hbare : Bare cs) (hnumber : ∀ value, ¬ SpellsNumber cs value) :
    Atom cs (.leaf (String.ofList cs))

mutual

/-- A text is an expression. -/
inductive Expr : List Char → TypeExpr → Prop
  | tuple {before cs after : List Char} {items : List TypeExpr} (hbefore : Spacing before)
    (htuple : Tuple cs items) (hafter : Spacing after) : Expr (before ++ cs ++ after) (.tuple items)
  | atom {before cs after : List Char} {e : TypeExpr} (hbefore : Spacing before) (hatom : Atom cs e)
    (hafter : Spacing after) : Expr (before ++ cs ++ after) e

/-- A text is a tuple with the given items. -/
inductive Tuple : List Char → List TypeExpr → Prop
  | empty {cs : List Char} (hspacing : Spacing cs) : Tuple ('(' :: cs ++ [')']) []
  | plain {cs : List Char} {items : List TypeExpr} (hitems : Items cs items) :
    Tuple ('(' :: cs ++ [')']) items
  | trailing {cs after : List Char} {items : List TypeExpr} (hitems : Items cs items)
    (hafter : Spacing after) : Tuple ('(' :: cs ++ ',' :: after ++ [')']) items

/-- A text is one or more expressions with commas between them. -/
inductive Items : List Char → List TypeExpr → Prop
  | one {cs : List Char} {e : TypeExpr} (he : Expr cs e) : Items cs [e]
  | more {cs rest : List Char} {e : TypeExpr} {items : List TypeExpr} (he : Expr cs e)
    (hrest : Items rest items) : Items (cs ++ ',' :: rest) (e :: items)

end

/-- No spacing is spacing. -/
theorem Spacing.nil : Spacing [] := by
  intro c hc
  cases hc

/-- Spacing consists of the characters that the reader skips. -/
theorem spacing_iff (cs : List Char) : Spacing cs ↔ ∀ c ∈ cs, Text.isSpacing c = true := by
  simp [Spacing, Text.isSpacing, or_assoc]

/-- Spacing before spacing is spacing. -/
theorem Spacing.append {a b : List Char} (ha : Spacing a) (hb : Spacing b) : Spacing (a ++ b) := by
  intro c hc
  rcases List.mem_append.mp hc with hc | hc
  · exact ha c hc
  · exact hb c hc

/-- Bare runs consist of the characters that the reader gathers. -/
theorem bare_iff (cs : List Char) : Bare cs ↔ cs ≠ [] ∧ ∀ c ∈ cs, TypeExpr.isBare c = true := by
  simp [Bare, TypeExpr.isBare, TypeExpr.isDelimiter, Text.isBlank, and_assoc]

/-- A bare run is an atom and stands for the type that the reader gives it. -/
theorem Bare.atom {cs : List Char} (hbare : Bare cs) :
    Atom cs (TypeExpr.ofBare (String.ofList cs)) := by
  have hparse : Json.parse? (String.ofList cs) = Json.ofChars? cs := by
    rw [Json.parse?, String.toList_ofList]
  rw [TypeExpr.ofBare, hparse]
  split
  · next value hvalue => exact .number hbare ⟨hvalue, Or.inl ⟨value, rfl⟩⟩
  · next value hvalue => exact .number hbare ⟨hvalue, Or.inr ⟨value, rfl⟩⟩
  · next hinteger hdouble =>
    refine .name hbare ?_
    intro value h
    obtain ⟨hvalue, ⟨n, rfl⟩ | ⟨x, rfl⟩⟩ := h
    · exact hinteger n hvalue
    · exact hdouble x hvalue

/-- A run that spells a number stands for the canonical text of the number. -/
theorem SpellsNumber.ofBare_eq {cs : List Char} {value : Json} (hnumber : SpellsNumber cs value) :
    TypeExpr.ofBare (String.ofList cs) = .literal value.compact := by
  obtain ⟨hvalue, ⟨n, rfl⟩ | ⟨x, rfl⟩⟩ := hnumber
  · simp [TypeExpr.ofBare, Json.parse?, hvalue]
  · simp [TypeExpr.ofBare, Json.parse?, hvalue]

/-- A run that spells no number stands for its name. -/
theorem ofBare_eq_leaf {cs : List Char} (hnumber : ∀ value, ¬ SpellsNumber cs value) :
    TypeExpr.ofBare (String.ofList cs) = .leaf (String.ofList cs) := by
  rw [TypeExpr.ofBare, Json.parse?, String.toList_ofList]
  split
  · next value hvalue => exact absurd ⟨hvalue, Or.inl ⟨value, rfl⟩⟩ (hnumber _)
  · next value hvalue => exact absurd ⟨hvalue, Or.inr ⟨value, rfl⟩⟩ (hnumber _)
  · rfl

end TypeSieve.Notation
