import TypeSieve.Proofs.Text.Strip
import TypeSieve.Proofs.TypeExpr.Completeness
import TypeSieve.Proofs.TypeExpr.Soundness

/-!
# Reading follows the grammar

The reader accepts exactly the texts that are derivable once the blanks around them are gone, and
gives the type that the derivation stands for. The blanks at the ends are all of Unicode, the
spacing inside is four characters only.
-/

namespace TypeSieve.TypeExpr

/-- Reading a complete text and deriving it are the same. -/
theorem ofChars?_eq_some_iff (cs : List Char) (e : TypeExpr) :
    ofChars? cs = some e ↔ Notation.Expr cs e :=
  ⟨Reading.expr_of_ofChars?, Reading.ofChars?_of_expr⟩

/-- A text is read as a type exactly when the stripped text is read completely. -/
theorem parse_eq_ok_iff (text : String) (e : TypeExpr) :
    parse text = .ok e ↔ ofChars? (Text.trimChars text.toList) = some e := by
  unfold parse
  dsimp only
  split
  · next hblank =>
    rw [hblank]
    constructor <;> intro h <;> cases h
  · split
    · next found hfound => rw [hfound, Except.ok.injEq, Option.some.injEq]
    · next hnone =>
      rw [hnone]
      constructor <;> intro h <;> cases h

/-- A text is read as a type exactly when the grammar derives the text without its surrounding
blanks as this type, and no text is derived as two types. -/
theorem parse_eq_ok_iff_expr :
    (∀ text e, parse text = .ok e ↔ ∃ body, Text.Stripped text.toList body ∧ Notation.Expr body e) ∧
      ∀ cs e e', Notation.Expr cs e → Notation.Expr cs e' → e = e' := by
  constructor
  · intro text e
    simp only [parse_eq_ok_iff, ofChars?_eq_some_iff, Text.stripped_iff, exists_eq_left]
  · intro cs e e' he he'
    rw [← ofChars?_eq_some_iff] at he he'
    exact Option.some.inj (he.symm.trans he')

end TypeSieve.TypeExpr
