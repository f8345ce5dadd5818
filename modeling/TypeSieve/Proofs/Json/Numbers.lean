import TypeSieve.Proofs.Json.NumberTexts
import TypeSieve.Proofs.Json.Readings
import TypeSieve.Proofs.Json.Scanning

/-!
# Integers and other numbers

The text of a binary64 number has a point or an exponent, which that of an integer has not, so the
text of a number tells of which kind it is. Whatever is read from a text in the characters of
numbers is a number.
-/

namespace TypeSieve.Json

/-- A text has a point or an exponent. -/
def HasMark (cs : List Char) : Prop := '.' ∈ cs ∨ 'e' ∈ cs

/-- A positive decimal is written with a point or an exponent. -/
theorem hasMark_decimalChars (layout : NumberLayout) (d : Decimal) :
    HasMark (decimalChars layout d) := by
  unfold decimalChars
  dsimp only
  split
  · left
    split
    · simp
    · split <;> simp
  · right
    split
    · next hnil => exact absurd hnil (natDigits_ne_nil _)
    · simp
    · simp

/-- A binary64 number is written with a point or an exponent. -/
theorem hasMark_doubleChars (x : Double) : HasMark (doubleChars x) := by
  have hmagnitude : HasMark
      (if x.isZero then ['0', '.', '0'] else decimalChars numberLayout x.shortest) := by
    split
    · exact .inl (by decide)
    · exact hasMark_decimalChars _ _
  unfold doubleChars
  dsimp only
  split
  · exact hmagnitude.imp (List.mem_cons_of_mem _) (List.mem_cons_of_mem _)
  · exact hmagnitude

/-- An integer is written without a point and without an exponent. -/
theorem not_hasMark_integerChars (n : Int) : ¬ HasMark (integerChars n) := by
  have hdigits : ∀ k, '.' ∉ natDigits k ∧ 'e' ∉ natDigits k := by
    intro k
    constructor
    · exact fun hmem => absurd (isDigit_of_mem_natDigits hmem) (by decide)
    · exact fun hmem => absurd (isDigit_of_mem_natDigits hmem) (by decide)
  cases n with
  | ofNat k => simpa [HasMark, integerChars] using hdigits k
  | negSucc k => simpa [HasMark, integerChars] using hdigits (k + 1)

/-- No binary64 number is written as an integer. -/
theorem compact_double_ne_compact_integer (x : Double) (n : Int) :
    (Json.double x).compact ≠ (Json.integer n).compact := by
  intro h
  have hchars : doubleChars x = integerChars n := String.ofList_injective h
  exact not_hasMark_integerChars n (hchars ▸ hasMark_doubleChars x)

/-- The characters of numbers are among those of words and numerals. -/
theorem isRunChar_of_numberChar {c : Char} (h : NumberChar c) : isRunChar c = true := by
  rcases h with hdigit | hsign
  · simp [isRunChar, hdigit]
  · simp only [List.mem_cons, List.not_mem_nil, or_false] at hsign
    rcases hsign with rfl | rfl | rfl | rfl <;> decide

/-- A text in the characters of numbers is no word, so as a run it is a numeral if anything. -/
theorem NumberText.readRun_eq {cs : List Char} (h : NumberText cs) :
    readRun cs = (Numeral.ofChars? cs).map .numeral := by
  have hnull : cs ≠ ['n', 'u', 'l', 'l'] := by
    rintro rfl
    exact absurd (h.2 'n') (by decide)
  have htrue : cs ≠ ['t', 'r', 'u', 'e'] := by
    rintro rfl
    exact absurd (h.2 't') (by decide)
  have hfalse : cs ≠ ['f', 'a', 'l', 's', 'e'] := by
    rintro rfl
    exact absurd (h.2 'f') (by decide)
  rw [readRun, if_neg hnull, if_neg htrue, if_neg hfalse]

/-- What is read from a text in the characters of numbers is a number. -/
theorem NumberText.cases {cs : List Char} (hcs : NumberText cs) {value : Json}
    (h : ofChars? cs = some value) : (∃ n, value = .integer n) ∨ ∃ x, value = .double x := by
  obtain ⟨form, hform, hvalue⟩ := Option.bind_eq_some_iff.mp h
  have hlexemes := lexemes_of_runChars hcs.1 fun c hc => isRunChar_of_numberChar (hcs.2 c hc)
  rw [Form.ofChars?, hlexemes, hcs.readRun_eq] at hform
  cases hnumeral : Numeral.ofChars? cs with
  | none => simp [hnumeral] at hform
  | some n =>
    rw [hnumeral] at hform
    obtain rfl : Form.numeral n = form := Option.some.inj hform
    rcases Numeral.value_cases hvalue with ⟨i, hi, -⟩ | hdouble
    · exact .inl ⟨i, hi⟩
    · exact .inr hdouble

end TypeSieve.Json
