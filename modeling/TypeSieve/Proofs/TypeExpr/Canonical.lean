import TypeSieve.Proofs.TypeExpr.Occurrences
import TypeSieve.Proofs.TypeExpr.RoundTrip
import TypeSieve.Proofs.TypeExpr.Written

/-!
# Types with canonical literals

Reading a plain value as a type and writing the type gives the value back. Writing a type and
reading the value gives the type back exactly if its literals are canonical: a text that is read as
a value that is neither a string nor an array, and is the compact text of this value. Any other text
becomes a string, a name or a tuple, or changes its spelling on the way.
-/

namespace TypeSieve.TypeExpr

/-- A text that is read as a value that is neither a string nor an array, and is the compact text of
this value. -/
def Canonical (text : String) : Prop :=
  ∃ value, Json.parse? text = some value ∧ value.IsLiteral ∧ value.compact = text

/-- A literal is written as a value that is read as the literal exactly if its text is canonical. -/
theorem ofJson_toJson_literal_iff_canonical (text : String) :
    ofJson (literal text).toJson = .literal text ↔ Canonical text := by
  rw [toJson, literalValue, Canonical]
  cases hparse : Json.parse? text with
  | none =>
    -- The text stands for itself as a string, which is a name.
    simp [ofJson]
  | some value => simp [ofJson_eq_literal_iff]

/-- A literal occurs in a type exactly if it is among its atoms. -/
theorem literal_mem_atoms_iff (text : String) (e : TypeExpr) :
    .literal text ∈ e.atoms ↔ Occurs (.literal text) e := by
  rw [mem_atoms_iff]
  exact and_iff_right trivial

/-- A type is written as a value that is read as the type exactly if every literal in it has a
canonical text. -/
theorem ofJson_toJson_iff_canonical (e : TypeExpr) :
    ofJson e.toJson = e ↔ ∀ text, Occurs (.literal text) e → Canonical text := by
  rw [ofJson_toJson_iff]
  simp only [← literal_mem_atoms_iff, ← ofJson_toJson_literal_iff_canonical]
  constructor
  · intro hatoms text htext
    exact hatoms _ htext
  · intro hliterals atom hatom
    rcases leaf_or_literal_of_mem_atoms hatom with ⟨name, rfl⟩ | ⟨text, rfl⟩
    · rfl
    · exact hliterals text hatom

/-- Types and values return through each other. A plain value that nests no deeper than a text may
is read as a type that is written as this value. A type is written as a value that is read as the
type exactly if every literal that occurs in it has a canonical text. -/
theorem returns_through_json :
    (∀ value : Json, value.Plain Json.depthLimit → (ofJson value).toJson = value) ∧
    (∀ e : TypeExpr, ofJson e.toJson = e ↔ ∀ text, Occurs (.literal text) e → Canonical text) :=
  ⟨fun _ hplain => toJson_ofJson hplain le_rfl, ofJson_toJson_iff_canonical⟩

/-- A type with a number, an object and a null. -/
def mixedValue : Json :=
  .array [.array [.string "float64", .integer 3], .object [("weird", .bool true)], .null]

/-- The value returns, and so the text of the number in it is canonical. A type does not return if
its literal has a space in front of the number, or is the text of a string. -/
theorem returns_through_json_mixed :
    (mixedValue.Plain Json.depthLimit ∧ (ofJson mixedValue).toJson = mixedValue) ∧
    (Occurs (.literal "3") (ofJson mixedValue) ∧ Canonical "3") ∧
    (¬ Canonical " 3" ∧ ofJson (tuple [.literal " 3"]).toJson ≠ tuple [.literal " 3"]) ∧
    ¬ Canonical "\"x\"" := by
  have hplain : mixedValue.Plain Json.depthLimit := by
    refine ⟨?_, ?_⟩
    · simp [mixedValue, Json.Exact, Json.ExactItems, Json.ExactMembers, Json.depthLimit,
        Json.InWord, Json.Numeral.wordMax]
    · simp [mixedValue, Json.Ordered, Json.OrderedItems, Json.OrderedMembers, Ascending]
  obtain ⟨hvalue, htype⟩ := returns_through_json
  have hnumber : Occurs (.literal "3") (ofJson mixedValue) :=
    .item (List.mem_cons_self ..) (.item (List.mem_cons_of_mem _ (List.mem_cons_self ..)) .whole)
  have hreturns : ofJson (ofJson mixedValue).toJson = ofJson mixedValue :=
    congrArg ofJson (hvalue _ hplain)
  have hspace : ¬ Canonical " 3" := by
    rw [← ofJson_toJson_literal_iff_canonical]
    decide +kernel
  refine ⟨⟨hplain, hvalue _ hplain⟩, ⟨hnumber, (htype _).mp hreturns _ hnumber⟩, ⟨hspace, ?_⟩, ?_⟩
  · rw [ne_eq, htype]
    exact fun h => hspace (h _ (.item (List.mem_cons_self ..) .whole))
  · rw [← ofJson_toJson_literal_iff_canonical]
    decide +kernel

end TypeSieve.TypeExpr
