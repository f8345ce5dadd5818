import TypeSieve.Config.Flags
import TypeSieve.Proofs.Dict
import TypeSieve.Proofs.Outcome
import TypeSieve.Proofs.Text.Strip
import Mathlib.Data.List.TakeWhile

/-!
# Entries for single classes

An entry is taken apart at its first equals sign: what stands before it, without the blanks around,
is the name of a class, and what stands behind it is a pattern. Entries for one class are gathered,
so each class has the patterns of its entries in their order, whatever entries for other classes
stand between them.
-/

namespace TypeSieve.Overrides

/-- An entry has a class name and the text of a pattern, parted by its first equals sign; neither is
blank. -/
structure Parts (entry className pattern : String) : Prop where
  first_sign : ∃ front, entry.toList = front ++ '=' :: pattern.toList ∧ '=' ∉ front ∧
    Text.Stripped front className.toList
  className_ne : className ≠ ""
  pattern_visible : ∃ c ∈ pattern.toList, c ∉ Text.blanks

/-- What an entry is for: a class name and a pattern. -/
def Gives (entry : String) (given : String × TypeExpr) : Prop :=
  ∃ text, Parts entry given.1 text ∧ TypeExpr.parsePattern text = .ok given.2

/-- Why an entry is refused: for its form, and if that is right, for its pattern. -/
inductive Refused (entry : String) : Failure → Prop
  | form (hform : ∀ className text, ¬ Parts entry className text) :
      Refused entry (.malformedEntry entry)
  | pattern {className text : String} {e : PatternError} (hparts : Parts entry className text)
    (hpattern : TypeExpr.parsePattern text = .error e) : Refused entry (.pattern e)

/-- An entry is cut at its first equals sign. -/
theorem splitEntry_of_sign {entry : String} {front pattern : List Char}
    (hentry : entry.toList = front ++ '=' :: pattern) (hfront : '=' ∉ front) :
    splitEntry entry =
      if front.all Text.isBlank || pattern.all Text.isBlank then .error (.malformedEntry entry)
      else .ok (String.ofList (Text.trimChars front), String.ofList pattern) := by
  unfold splitEntry
  rw [hentry, Text.takeWhile_ne hfront, Text.dropWhile_ne hfront]
  rfl

/-- An entry without an equals sign is malformed. -/
theorem splitEntry_of_no_sign {entry : String} (h : '=' ∉ entry.toList) :
    splitEntry entry = .error (.malformedEntry entry) := by
  unfold splitEntry
  rw [Text.dropWhile_ne_eq_nil h]

/-- An entry is taken apart exactly into its parts. -/
theorem splitEntry_eq_ok_iff (entry className pattern : String) :
    splitEntry entry = .ok (className, pattern) ↔ Parts entry className pattern := by
  constructor
  · intro h
    by_cases hsign : '=' ∈ entry.toList
    · obtain ⟨front, rest, hentry, hfront⟩ := List.eq_append_cons_of_mem hsign
      rw [splitEntry_of_sign hentry hfront] at h
      split at h
      · cases h
      · next hvisible =>
        rw [Bool.or_eq_true, not_or, Text.all_isBlank_iff, Bool.not_eq_true,
          Text.all_isBlank_eq_false_iff] at hvisible
        obtain ⟨rfl, rfl⟩ := Prod.mk.inj (Except.ok.inj h)
        refine ⟨⟨front, ?_, hfront, ?_⟩, ?_, ?_⟩
        · rwa [String.toList_ofList]
        · rw [String.toList_ofList]
          exact Text.stripped_trimChars front
        · exact fun hempty => hvisible.1 (String.ofList_eq_empty_iff.mp hempty)
        · rw [String.toList_ofList]
          exact hvisible.2
    · rw [splitEntry_of_no_sign hsign] at h
      cases h
  · intro h
    obtain ⟨⟨front, hentry, hfront, hstripped⟩, hne, hvisible⟩ := h
    have hname : className.toList = Text.trimChars front := (Text.stripped_iff ..).mp hstripped
    have hfrontVisible : front.all Text.isBlank = false := by
      rw [Bool.eq_false_iff, ne_eq, Text.all_isBlank_iff, ← hname, String.toList_eq_nil_iff]
      exact hne
    rw [splitEntry_of_sign hentry hfront, hfrontVisible,
      (Text.all_isBlank_eq_false_iff _).mpr hvisible, ← hname,
      String.ofList_toList, String.ofList_toList]
    rfl

/-- An entry without parts is malformed. -/
theorem splitEntry_eq_error {entry : String} (h : ∀ className text, ¬ Parts entry className text) :
    splitEntry entry = .error (.malformedEntry entry) := by
  by_cases hsign : '=' ∈ entry.toList
  · obtain ⟨front, rest, hentry, hfront⟩ := List.eq_append_cons_of_mem hsign
    have hsplit := splitEntry_of_sign hentry hfront
    split at hsplit
    · exact hsplit
    · exact absurd ((splitEntry_eq_ok_iff ..).mp hsplit) (h _ _)
  · exact splitEntry_of_no_sign hsign

/-- An entry is read exactly as what it gives. -/
theorem readEntry_eq_ok_iff (entry : String) (given : String × TypeExpr) :
    readEntry entry = .ok given ↔ Gives entry given := by
  obtain ⟨className, pattern⟩ := given
  simp only [readEntry, readPattern, Gives, bind_eq_ok_iff,
    mapError_eq_ok_iff, ← splitEntry_eq_ok_iff]
  constructor
  · rintro ⟨⟨name, text⟩, hsplit, e, hpattern, heq⟩
    obtain ⟨rfl, rfl⟩ := Prod.mk.inj (Except.ok.inj heq)
    exact ⟨text, hsplit, hpattern⟩
  · rintro ⟨text, hsplit, hpattern⟩
    exact ⟨(className, text), hsplit, pattern, hpattern, rfl⟩

/-- An entry that is not read is refused. -/
theorem refused_of_readEntry {entry : String} {failure : Failure}
    (h : readEntry entry = .error failure) : Refused entry failure := by
  by_cases hform : ∃ className text, Parts entry className text
  · obtain ⟨className, text, hparts⟩ := hform
    rw [readEntry, (splitEntry_eq_ok_iff ..).mpr hparts] at h
    change (readPattern text >>= _) = _ at h
    cases hpattern : TypeExpr.parsePattern text with
    | ok e =>
      rw [readPattern, hpattern] at h
      cases h
    | error e =>
      rw [readPattern, hpattern] at h
      obtain rfl := Except.error.inj h
      exact .pattern hparts hpattern
  · have hnone : ∀ className text, ¬ Parts entry className text := fun className text hparts =>
      hform ⟨className, text, hparts⟩
    rw [readEntry, splitEntry_eq_error hnone] at h
    obtain rfl := Except.error.inj h
    exact .form hnone

/-- The patterns that are given for a class, in their order. -/
def patternsOf (given : List (String × TypeExpr)) (className : String) : List TypeExpr :=
  (given.filter fun entry => entry.1 = className).map Prod.snd

/-- A class has the pattern of the first entry if it is the class of the entry, and those of the
others. -/
theorem patternsOf_cons (entry : String × TypeExpr) (rest : List (String × TypeExpr))
    (className : String) :
    patternsOf (entry :: rest) className =
      if entry.1 = className then entry.2 :: patternsOf rest className
      else patternsOf rest className := by
  by_cases hname : entry.1 = className
  · simp [patternsOf, hname]
  · simp [patternsOf, hname]

/-- Gathering puts the patterns that are given for a class behind those that it has. -/
theorem get?_foldl_addPattern (given : List (String × TypeExpr)) (lists : Dict (List TypeExpr))
    (className : String) :
    (given.foldl addPattern lists).get? className =
      if patternsOf given className = [] then lists.get? className
      else some ((lists.get? className).getD [] ++ patternsOf given className) := by
  induction given generalizing lists with
  | nil => rfl
  | cons entry rest ih =>
    rw [List.foldl_cons, ih, addPattern, Dict.get?_insert, patternsOf_cons]
    by_cases hname : entry.1 = className
    · rw [if_pos hname, if_pos hname, if_neg (List.cons_ne_nil _ _), Option.getD_some, hname]
      by_cases hrest : patternsOf rest className = []
      · rw [if_pos hrest, hrest]
      · rw [if_neg hrest, List.append_assoc, List.singleton_append]
    · rw [if_neg hname, if_neg hname]

/-- The classes of the gathered lists are those with an entry, and each has the patterns of its
entries. -/
theorem get?_gathered (given : List (String × TypeExpr)) (className : String)
    (patterns : List TypeExpr) :
    (given.foldl addPattern .empty).get? className = some patterns ↔
      patterns ≠ [] ∧ patterns = patternsOf given className := by
  have hempty : Dict.empty.get? className = (none : Option (List TypeExpr)) := rfl
  rw [get?_foldl_addPattern, hempty]
  by_cases hnone : patternsOf given className = []
  · rw [if_pos hnone, hnone]
    simp
  · rw [if_neg hnone, Option.getD_none, List.nil_append, Option.some.injEq, eq_comm]
    constructor
    · rintro rfl
      exact ⟨hnone, rfl⟩
    · exact fun h => h.2

/-- The gathered lists are not empty if there is an entry. -/
theorem isEmpty_gathered {given : List (String × TypeExpr)} (h : given ≠ []) :
    (given.foldl addPattern .empty).isEmpty = false := by
  obtain ⟨entry, rest, rfl⟩ := List.exists_cons_of_ne_nil h
  have hne : patternsOf (entry :: rest) entry.1 ≠ [] := by
    rw [patternsOf_cons, if_pos rfl]
    exact List.cons_ne_nil _ _
  exact Dict.isEmpty_eq_false ((get?_gathered _ entry.1 _).mpr ⟨hne, rfl⟩)

end TypeSieve.Overrides
