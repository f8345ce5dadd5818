import TypeSieve.Text.Blank
import Mathlib.Data.List.TakeWhile

/-!
# Texts without the blanks around them

A text is stripped by taking blanks off both ends until no blank is left there. Trimming is this and
nothing else. A text is cut at a sign where the sign stands first.
-/

namespace TypeSieve.Text

/-- What is left of a text without the blanks at its ends. -/
structure Stripped (whole body : List Char) : Prop where
  blanks_around : ∃ before after, whole = before ++ body ++ after ∧ (∀ c ∈ before, c ∈ blanks) ∧
    ∀ c ∈ after, c ∈ blanks
  first : ∀ c ∈ body.head?, c ∉ blanks
  last : ∀ c ∈ body.getLast?, c ∉ blanks

/-- Blank characters are those of the list. -/
theorem isBlank_iff (c : Char) : isBlank c = true ↔ c ∈ blanks := by
  rw [isBlank, List.contains_iff_mem]

/-- Blanks before a character that is none are dropped up to it. -/
theorem dropWhile_blanks {before rest : List Char} (hbefore : ∀ c ∈ before, c ∈ blanks)
    (hrest : ∀ c ∈ rest.head?, c ∉ blanks) : (before ++ rest).dropWhile isBlank = rest := by
  rw [List.dropWhile_append_of_pos fun c hc => (isBlank_iff c).mpr (hbefore c hc)]
  cases rest with
  | nil => rfl
  | cons c rest =>
    have hc : isBlank c = false := by
      rw [Bool.eq_false_iff, ne_eq, isBlank_iff]
      exact hrest c rfl
    rw [List.dropWhile_cons_of_neg (by simp [hc])]

/-- No blank is left in front. -/
theorem head?_dropWhile_blanks (cs : List Char) :
    ∀ c ∈ (cs.dropWhile isBlank).head?, c ∉ blanks := by
  intro c hc
  have h := List.head?_dropWhile_not isBlank cs
  rw [Option.mem_def.mp hc] at h
  rw [← isBlank_iff, h]
  exact Bool.false_ne_true

/-- Trimming strips a text. -/
theorem stripped_trimChars (cs : List Char) : Stripped cs (trimChars cs) := by
  have hfront := List.takeWhile_append_dropWhile (p := isBlank) (l := cs)
  have hback := List.takeWhile_append_dropWhile (p := isBlank) (l := (cs.dropWhile isBlank).reverse)
  have hback' : cs.dropWhile isBlank =
      trimChars cs ++ ((cs.dropWhile isBlank).reverse.takeWhile isBlank).reverse := by
    rw [trimChars, ← List.reverse_append, hback, List.reverse_reverse]
  refine ⟨⟨cs.takeWhile isBlank, ((cs.dropWhile isBlank).reverse.takeWhile isBlank).reverse, ?_, ?_,
    ?_⟩, ?_, ?_⟩
  · rw [List.append_assoc, ← hback', hfront]
  · intro c hc
    exact (isBlank_iff c).mp (List.all_eq_true.mp List.all_takeWhile c hc)
  · intro c hc
    exact (isBlank_iff c).mp (List.all_eq_true.mp List.all_takeWhile c (List.mem_reverse.mp hc))
  · intro c hc
    refine head?_dropWhile_blanks cs c ?_
    rw [hback', List.head?_append, Option.mem_def.mp hc]
    rfl
  · intro c hc
    rw [trimChars, List.getLast?_reverse] at hc
    exact head?_dropWhile_blanks _ c hc

/-- Trimming is the only way to strip a text. -/
theorem stripped_iff (whole body : List Char) : Stripped whole body ↔ body = trimChars whole := by
  constructor
  · intro h
    obtain ⟨⟨before, after, rfl, hbefore, hafter⟩, hfirst, hlast⟩ := h
    cases body with
    | nil =>
      have hblank : ∀ c ∈ before ++ [] ++ after, c ∈ blanks := by
        intro c hc
        rw [List.append_nil, List.mem_append] at hc
        exact hc.elim (hbefore c) (hafter c)
      have hnone : (before ++ [] ++ after ++ []).dropWhile isBlank = [] :=
        dropWhile_blanks hblank (by simp)
      rw [List.append_nil] at hnone
      rw [trimChars, hnone]
      rfl
    | cons c rest =>
      have hfront : (before ++ (c :: rest) ++ after).dropWhile isBlank = c :: rest ++ after := by
        rw [List.append_assoc]
        exact dropWhile_blanks hbefore hfirst
      have hback : (after.reverse ++ (c :: rest).reverse).dropWhile isBlank =
          (c :: rest).reverse := by
        refine dropWhile_blanks (fun d hd => hafter d (List.mem_reverse.mp hd)) ?_
        rw [List.head?_reverse]
        exact hlast
      rw [trimChars, hfront, List.reverse_append, hback, List.reverse_reverse]
  · intro heq
    subst heq
    exact stripped_trimChars whole

/-- A text is blank throughout exactly if trimming leaves nothing of it. -/
theorem all_isBlank_iff (cs : List Char) : cs.all isBlank = true ↔ trimChars cs = [] := by
  constructor
  · intro h
    have hnil : cs.dropWhile isBlank = [] := by
      rw [List.dropWhile_eq_nil_iff]
      exact List.all_eq_true.mp h
    rw [trimChars, hnil]
    rfl
  · intro h
    obtain ⟨before, after, heq, hbefore, hafter⟩ := (stripped_trimChars cs).blanks_around
    rw [h, List.append_nil] at heq
    rw [heq, List.all_eq_true, List.forall_mem_append]
    exact ⟨fun c hc => (isBlank_iff c).mpr (hbefore c hc),
      fun c hc => (isBlank_iff c).mpr (hafter c hc)⟩

/-- A text is not blank throughout exactly if one of its characters is not blank. -/
theorem all_isBlank_eq_false_iff (cs : List Char) :
    cs.all isBlank = false ↔ ∃ c ∈ cs, c ∉ blanks := by
  simp only [List.all_eq_false, isBlank_iff]

/-- Trimming keeps a text that has no blank at its ends. -/
theorem trimChars_eq_self {cs : List Char} (hfirst : ∀ c ∈ cs.head?, c ∉ blanks)
    (hlast : ∀ c ∈ cs.getLast?, c ∉ blanks) : trimChars cs = cs := by
  have hwhole : cs = [] ++ cs ++ [] := by simp
  have hstripped : Stripped cs cs := ⟨⟨[], [], hwhole, by simp, by simp⟩, hfirst, hlast⟩
  exact ((stripped_iff cs cs).mp hstripped).symm

/-- Trimming keeps a text between two characters that are not blank. -/
theorem trimChars_enclosed {first last : Char} (hfirst : first ∉ blanks) (hlast : last ∉ blanks)
    (cs : List Char) : trimChars (first :: cs ++ [last]) = first :: cs ++ [last] := by
  refine trimChars_eq_self ?_ ?_
  · intro c hc
    obtain rfl := Option.some.inj hc
    exact hfirst
  · intro c hc
    rw [List.getLast?_append, List.getLast?_singleton, Option.some_or] at hc
    obtain rfl := Option.some.inj hc
    exact hlast

section Cut

variable {sign : Char} {front rest : List Char}

/-- No character of a text without a sign is the sign. -/
theorem forall_ne_of_not_mem (h : sign ∉ front) : ∀ c ∈ front, decide (c ≠ sign) = true := by
  intro c hc
  rw [decide_eq_true_iff]
  rintro rfl
  exact h hc

/-- The front of a text up to a sign. -/
theorem takeWhile_ne (h : sign ∉ front) : (front ++ sign :: rest).takeWhile (· ≠ sign) = front := by
  rw [List.takeWhile_append_of_pos (forall_ne_of_not_mem h)]
  simp

/-- What is left of a text from a sign on. -/
theorem dropWhile_ne (h : sign ∉ front) :
    (front ++ sign :: rest).dropWhile (· ≠ sign) = sign :: rest := by
  rw [List.dropWhile_append_of_pos (forall_ne_of_not_mem h)]
  simp

/-- Nothing is left of a text without the sign. -/
theorem dropWhile_ne_eq_nil (h : sign ∉ front) : front.dropWhile (· ≠ sign) = [] :=
  List.dropWhile_eq_nil_iff.mpr (forall_ne_of_not_mem h)

end Cut

end TypeSieve.Text
