import TypeSieve.Proofs.Json.Integers

/-!
# The characters of numbers

The text of a number is not empty and holds nothing but digits, signs, a point and the letter of an
exponent, in whichever layout it is written.
-/

namespace TypeSieve.Json

/-- A character that numbers are written with. -/
def NumberChar (c : Char) : Prop := Text.isDigit c = true ∨ c ∈ ['-', '+', '.', 'e']

instance (c : Char) : Decidable (NumberChar c) := inferInstanceAs (Decidable (_ ∨ _))

/-- Given characters are characters of numbers if each of them is. -/
theorem numberChar_of_all {cs : List Char} (h : cs.all (fun c => decide (NumberChar c)) = true) :
    ∀ c ∈ cs, NumberChar c := by
  simpa using h

/-- A text that numbers may have. -/
def NumberText (cs : List Char) : Prop := cs ≠ [] ∧ ∀ c ∈ cs, NumberChar c

/-- The digits of a natural are characters of numbers. -/
theorem numberChar_natDigits (n : Nat) : ∀ c ∈ natDigits n, NumberChar c := fun _ hc =>
  Or.inl (isDigit_of_mem_natDigits hc)

/-- The digits of a natural are the text of a number. -/
theorem numberText_natDigits (n : Nat) : NumberText (natDigits n) :=
  ⟨natDigits_ne_nil n, numberChar_natDigits n⟩

/-- A sign before the text of a number leaves it one. -/
theorem NumberText.minus {cs : List Char} (h : NumberText cs) : NumberText ('-' :: cs) := by
  exact ⟨List.cons_ne_nil _ _, List.forall_mem_cons.mpr ⟨by decide, h.2⟩⟩

/-- The text of an integer is one of a number. -/
theorem numberText_integerChars (n : Int) : NumberText (integerChars n) := by
  cases n with
  | ofNat k => exact numberText_natDigits k
  | negSucc k => exact (numberText_natDigits (k + 1)).minus

/-- A positive decimal is written in characters of numbers, positionally or with an exponent. -/
theorem numberText_decimalChars (layout : NumberLayout) (d : Decimal) :
    NumberText (decimalChars layout d) := by
  have hdigits := numberChar_natDigits d.significand
  have hzeros : ∀ n, ∀ c ∈ List.replicate n '0', NumberChar c := by
    intro n c hc
    rw [List.eq_of_mem_replicate hc]
    decide
  unfold decimalChars
  dsimp only
  split
  · split
    · have hwhole := List.forall_mem_append.mpr ⟨hdigits, hzeros d.exponent.toNat⟩
      exact ⟨by simp, List.forall_mem_append.mpr ⟨hwhole, numberChar_of_all (by decide)⟩⟩
    split
    · refine ⟨by simp,
        List.forall_mem_append.mpr ⟨fun c hc => hdigits c (List.mem_of_mem_take hc), ?_⟩⟩
      exact List.forall_mem_cons.mpr ⟨by decide, fun c hc => hdigits c (List.mem_of_mem_drop hc)⟩
    · refine ⟨by simp, List.forall_mem_append.mpr ⟨?_, hdigits⟩⟩
      exact List.forall_mem_cons.mpr ⟨by decide, List.forall_mem_cons.mpr ⟨by decide, hzeros _⟩⟩
  · -- The exponent is the same behind one digit and behind several.
    generalize hpower : ((natDigits d.significand).length : Int) + d.exponent - 1 = power
    have hsign : NumberChar (if power < 0 then '-' else '+') := by split <;> decide
    have hexponent : ∀ c ∈ 'e' :: (if power < 0 then '-' else '+') :: natDigits power.natAbs,
        NumberChar c :=
      List.forall_mem_cons.mpr ⟨by decide, List.forall_mem_cons.mpr ⟨hsign, numberChar_natDigits _⟩⟩
    split
    · next hnil => exact absurd hnil (natDigits_ne_nil _)
    · next digit hone =>
      rw [hone] at hdigits
      exact ⟨List.cons_ne_nil _ _, List.forall_mem_append.mpr ⟨hdigits, hexponent⟩⟩
    · next digit rest _ hmany =>
      rw [hmany] at hdigits
      obtain ⟨hfirst, hrest⟩ := List.forall_mem_cons.mp hdigits
      refine ⟨List.cons_ne_nil _ _, List.forall_mem_cons.mpr ⟨hfirst, ?_⟩⟩
      exact List.forall_mem_cons.mpr ⟨by decide, List.forall_mem_append.mpr ⟨hrest, hexponent⟩⟩

/-- The text of a binary64 number is one of a number. -/
theorem numberText_doubleChars (x : Double) : NumberText (doubleChars x) := by
  have hmagnitude : NumberText
      (if x.isZero then ['0', '.', '0'] else decimalChars numberLayout x.shortest) := by
    split
    · exact ⟨List.cons_ne_nil _ _, numberChar_of_all (by decide)⟩
    · exact numberText_decimalChars _ _
  unfold doubleChars
  dsimp only
  split
  · exact hmagnitude.minus
  · exact hmagnitude

end TypeSieve.Json
