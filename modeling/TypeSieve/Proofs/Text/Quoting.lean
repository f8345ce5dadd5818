import TypeSieve.Text.Digit
import TypeSieve.Text.Quoted
import Mathlib.Data.List.Basic

/-!
# Quotes inside quoted texts

Escaping never loses a character, and it brings no quote into a text that has none. So a quoted text
without any escape has no quote but those around it.
-/

namespace TypeSieve.Text

/-- The digits of a number in hexadecimal are the sixteen digits. -/
theorem digit_of_mem_hexDigits {n : Nat} {c : Char} (hc : c ∈ hexDigits n) :
    ∃ k < 16, c = Nat.digitChar k := by
  induction n using Nat.strongRecOn with
  | ind n ih =>
    rw [hexDigits] at hc
    by_cases hsmall : n < 16
    · rw [Nat.toDigits_of_lt_base hsmall, List.mem_singleton] at hc
      exact ⟨n, hsmall, hc⟩
    · rw [Nat.toDigits_of_base_le (by decide) (by omega), List.mem_append, List.mem_singleton] at hc
      rcases hc with hc | hc
      · exact ih (n / 16) (by omega) hc
      · exact ⟨n % 16, by omega, hc⟩

/-- A character that is none of the sixteen digits is not among those of a number. -/
theorem not_mem_hexDigits {c : Char} (hc : ∀ k < 16, c ≠ Nat.digitChar k) (n : Nat) :
    c ∉ hexDigits n := by
  intro hmem
  obtain ⟨k, hk, heq⟩ := digit_of_mem_hexDigits hmem
  exact hc k hk heq

/-- The characters with a short escape, each with the character behind the backslash. -/
def shortEscapes : List (Char × Char) :=
  [('\x00', '0'), ('\t', 't'), ('\r', 'r'), ('\n', 'n'), ('"', '"'), ('\\', '\\')]

/-- The escaped form of a character is a short escape, the character, or its code between braces. -/
theorem escapeChar_cases (c : Char) :
    (∃ e, escapeChar c = ['\\', e] ∧ (c, e) ∈ shortEscapes) ∨
      (escapeChar c = [c] ∧ c ≠ '"' ∧ c ≠ '\\') ∨
        escapeChar c = '\\' :: 'u' :: '\x7b' :: (hexDigits c.toNat ++ ['\x7d']) := by
  by_cases hshort : c ∈ shortEscapes.map Prod.fst
  · left
    simp only [shortEscapes, List.map_cons, List.map_nil, List.mem_cons, List.not_mem_nil, or_false]
      at hshort
    rcases hshort with rfl | rfl | rfl | rfl | rfl | rfl <;> exact ⟨_, rfl, by decide⟩
  · simp only [shortEscapes, List.map_cons, List.map_nil, List.mem_cons, List.not_mem_nil,
      or_false, not_or] at hshort
    obtain ⟨hzero, ht, hr, hn, hquote, hslash⟩ := hshort
    right
    unfold escapeChar
    rw [if_neg hzero, if_neg ht, if_neg hr, if_neg hn, if_neg hquote, if_neg hslash]
    split
    · exact .inl ⟨rfl, hquote, hslash⟩
    · exact .inr rfl

/-- Escaping a character other than the quote brings no quote. -/
theorem quote_not_mem_escapeChar {c : Char} (hc : c ≠ '"') : '"' ∉ escapeChar c := by
  rcases escapeChar_cases c with ⟨e, hform, hshort⟩ | ⟨hform, -, -⟩ | hform
  · have hnone : ∀ p ∈ shortEscapes, p.1 ≠ '"' → '"' ∉ ['\\', p.2] := by decide
    rw [hform]
    exact hnone _ hshort hc
  · rw [hform, List.mem_singleton]
    exact hc.symm
  · have hopen : '"' ∉ ['\\', 'u', '\x7b'] := by decide
    have hdigits : '"' ∉ hexDigits c.toNat := not_mem_hexDigits (by decide) c.toNat
    have hclose : '"' ∉ ['\x7d'] := by decide
    rw [hform]
    change '"' ∉ ['\\', 'u', '\x7b'] ++ (hexDigits c.toNat ++ ['\x7d'])
    simp only [List.mem_append, not_or]
    exact ⟨hopen, hdigits, hclose⟩

/-- Escaping a text without quotes brings none. -/
theorem quote_not_mem_flatMap_escapeChar {cs : List Char} (hcs : '"' ∉ cs) :
    '"' ∉ cs.flatMap escapeChar := by
  intro hmem
  obtain ⟨c, hc, hquote⟩ := List.mem_flatMap.mp hmem
  refine quote_not_mem_escapeChar ?_ hquote
  rintro rfl
  exact hcs hc

/-- An escaped character has at least one character. -/
theorem one_le_length_escapeChar (c : Char) : 1 ≤ (escapeChar c).length := by
  rcases escapeChar_cases c with ⟨e, hform, -⟩ | ⟨hform, -, -⟩ | hform <;> simp [hform]

/-- Escaping does not shorten a text. -/
theorem length_le_length_flatMap_escapeChar (cs : List Char) :
    cs.length ≤ (cs.flatMap escapeChar).length := by
  induction cs with
  | nil => exact Nat.le_refl _
  | cons c rest ih =>
    have hc := one_le_length_escapeChar c
    rw [List.flatMap_cons, List.length_append, List.length_cons]
    omega

/-- A text that escaping keeps has no quote, as each would make it longer. -/
theorem quote_not_mem_of_flatMap_escapeChar {cs : List Char} (h : cs.flatMap escapeChar = cs) :
    '"' ∉ cs := by
  intro hmem
  obtain ⟨before, after, rfl⟩ := List.append_of_mem hmem
  have hlength := congrArg List.length h
  have hbefore := length_le_length_flatMap_escapeChar before
  have hafter := length_le_length_flatMap_escapeChar after
  have hquote : (escapeChar '"').length = 2 := rfl
  simp only [List.flatMap_append, List.flatMap_cons, List.length_append, List.length_cons]
    at hlength
  omega

/-- A code that lies between the ranges of a table is in none of them. -/
theorem inRanges_eq_false (ranges : List (Nat × Nat)) {low high code : Nat}
    (hranges : ranges.all (fun range => decide (range.2 < low) || decide (high < range.1)) = true)
    (hlow : low ≤ code) (hhigh : code ≤ high) : inRanges ranges code = false := by
  rw [inRanges, List.any_eq_false]
  intro range hrange hinside
  have houtside := List.all_eq_true.mp hranges range hrange
  rw [Bool.or_eq_true, decide_eq_true_eq, decide_eq_true_eq] at houtside
  rw [Bool.and_eq_true, decide_eq_true_eq, decide_eq_true_eq] at hinside
  omega

/-- The characters of ASCII other than controls show by themselves. -/
theorem isPrintable_of_ascii {c : Char} (hlow : 32 ≤ c.toNat) (hhigh : c.toNat ≤ 126) :
    isPrintable c = true := by
  have hunprintable := inRanges_eq_false unprintableRanges (by decide +kernel) hlow hhigh
  have hextender := inRanges_eq_false extenderRanges (by decide +kernel) hlow hhigh
  rw [isPrintable, hunprintable, hextender]
  rfl

/-- A digit is not escaped. -/
theorem escapeChar_of_isDigit {c : Char} (hc : isDigit c = true) : escapeChar c = [c] := by
  have hne : ∀ d, isDigit d = false → c ≠ d := by
    rintro d hd rfl
    rw [hd] at hc
    cases hc
  rw [isDigit, Bool.and_eq_true, decide_eq_true_eq, decide_eq_true_eq] at hc
  have hlow : 48 ≤ c.toNat := hc.1
  have hhigh : c.toNat ≤ 57 := hc.2
  have hprintable : isPrintable c = true := isPrintable_of_ascii (by omega) (by omega)
  unfold escapeChar
  rw [if_neg (hne '\x00' (by decide)), if_neg (hne '\t' (by decide)), if_neg (hne '\r' (by decide)),
    if_neg (hne '\n' (by decide)), if_neg (hne '"' (by decide)), if_neg (hne '\\' (by decide)),
    if_pos hprintable]

/-- Escaping keeps a text made of digits. -/
theorem flatMap_escapeChar_of_digits {cs : List Char} (hcs : ∀ c ∈ cs, isDigit c = true) :
    cs.flatMap escapeChar = cs := by
  induction cs with
  | nil => rfl
  | cons c rest ih =>
    obtain ⟨hc, hrest⟩ := List.forall_mem_cons.mp hcs
    rw [List.flatMap_cons, escapeChar_of_isDigit hc, ih hrest, List.singleton_append]

end TypeSieve.Text
