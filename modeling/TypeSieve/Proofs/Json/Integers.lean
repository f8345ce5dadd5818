import TypeSieve.Json.Numeral
import TypeSieve.Json.Printer
import Mathlib.Data.List.TakeWhile

/-!
# Integers in JSON texts

The digits of an integer form a numeral, and within 64 bits this numeral has the integer as its
value.
-/

namespace TypeSieve.Json

/-- The integers that numerals keep: signed or unsigned, in 64 bits. -/
def InWord (n : Int) : Prop := -(Nat.pow 2 63 : Nat) ≤ n ∧ n ≤ (Numeral.wordMax : Nat)

instance (n : Int) : Decidable (InWord n) := inferInstanceAs (Decidable (_ ∧ _))

/-- The numeral that spells an integer. -/
def Numeral.ofInt (n : Int) : Numeral := ⟨decide (n < 0), natDigits n.natAbs, [], none⟩

/-- A natural is spelled in decimal digits. -/
theorem isDigit_of_mem_natDigits {n : Nat} {c : Char} (hc : c ∈ natDigits n) :
    Text.isDigit c = true :=
  Nat.isDigit_of_mem_toDigits (by decide) (by decide) hc

/-- The digits of a natural spell it. -/
theorem digitsValue_natDigits (n : Nat) : Text.digitsValue (natDigits n) = n :=
  Nat.ofDigitChars_ten_toDigits

/-- A natural has at least one digit. -/
theorem natDigits_ne_nil (n : Nat) : natDigits n ≠ [] := Nat.toDigits_ne_nil

/-- Only zero has a leading zero. -/
theorem eq_zero_of_head?_natDigits {n : Nat} (h : (natDigits n).head? = some '0') : n = 0 := by
  induction n using Nat.strongRecOn with
  | ind n ih =>
    by_cases hsmall : n < 10
    · rw [natDigits, Nat.toDigits_of_lt_base hsmall] at h
      have hdigit : ∀ k, k < 10 → Nat.digitChar k = '0' → k = 0 := by decide
      exact hdigit n hsmall (by simpa using h)
    · have hsplit : natDigits n = natDigits (n / 10) ++ [Nat.digitChar (n % 10)] :=
        Nat.toDigits_of_base_le (by decide) (by omega)
      obtain ⟨digit, hdigit⟩ := Option.isSome_iff_exists.mp
        (List.isSome_head?.mpr (natDigits_ne_nil (n / 10)))
      rw [hsplit, List.head?_append, hdigit] at h
      have hzero := ih (n / 10) (by omega) (hdigit.trans h)
      omega

/-- The digits of a natural are the magnitude of a numeral. -/
theorem readMagnitude_natDigits (negative : Bool) (n : Nat) :
    Numeral.readMagnitude negative (natDigits n) = some ⟨negative, natDigits n, [], none⟩ := by
  have htake : (natDigits n).takeWhile Text.isDigit = natDigits n :=
    List.takeWhile_eq_self_iff.mpr fun c hc => isDigit_of_mem_natDigits hc
  have hdrop : (natDigits n).dropWhile Text.isDigit = [] :=
    List.dropWhile_eq_nil_iff.mpr fun c hc => isDigit_of_mem_natDigits hc
  have hwhole :
      ¬(natDigits n = [] ∨ (natDigits n).head? = some '0' ∧ (natDigits n).length ≠ 1) := by
    intro hor
    rcases hor with hnil | ⟨hzero, hlength⟩
    · exact natDigits_ne_nil n hnil
    · rw [eq_zero_of_head?_natDigits hzero] at hlength
      exact hlength rfl
  unfold Numeral.readMagnitude
  rw [htake, hdrop]
  dsimp only
  rw [if_neg hwhole]
  rfl

/-- The text of an integer is a numeral. -/
theorem ofChars?_integerChars (n : Int) :
    Numeral.ofChars? (integerChars n) = some (Numeral.ofInt n) := by
  cases n with
  | ofNat k =>
    have hread := readMagnitude_natDigits false k
    rw [integerChars]
    cases hdigits : natDigits k with
    | nil => exact absurd hdigits (natDigits_ne_nil k)
    | cons digit rest =>
      have hminus : digit ≠ '-' := by
        intro heq
        subst heq
        have hdigit := isDigit_of_mem_natDigits (n := k) (c := '-') (by simp [hdigits])
        revert hdigit
        decide
      rw [hdigits] at hread
      unfold Numeral.ofChars?
      split
      · next heq => exact absurd (List.cons.inj heq).1 hminus
      · rw [hread, Numeral.ofInt]
        simp [hdigits]
  | negSucc k =>
    have hread := readMagnitude_natDigits true (k + 1)
    have hsign : decide (Int.negSucc k < 0) = true := by simp
    rw [integerChars, Numeral.ofChars?, hread, Numeral.ofInt, hsign, Int.natAbs_negSucc]

/-- The numeral of an integer of 64 bits has the integer as its value. -/
theorem value_ofInt {n : Int} (h : InWord n) : (Numeral.ofInt n).value = some (.integer n) := by
  obtain ⟨hlow, hhigh⟩ := h
  unfold Numeral.value
  simp only [Numeral.ofInt, digitsValue_natDigits, true_and]
  by_cases hsign : n < 0
  · have hne : n.natAbs ≠ 0 := by omega
    have hbound : n.natAbs ≤ Nat.pow 2 63 := by omega
    have hvalue : -(n.natAbs : Int) = n := by omega
    simp only [hsign, hne, hbound, hvalue, decide_true, Bool.not_true, Bool.false_eq_true,
      false_and, if_false, ne_eq, not_false_eq_true, and_self, if_true]
  · have hbound : n.natAbs ≤ Numeral.wordMax := by omega
    have hvalue : (n.natAbs : Int) = n := by omega
    simp only [hsign, hbound, hvalue, decide_false, Bool.not_false, and_self, if_true]

end TypeSieve.Json
