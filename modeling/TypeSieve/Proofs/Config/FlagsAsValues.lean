import TypeSieve.Proofs.Config.Entries
import TypeSieve.Proofs.SkipTypes.Checked
import TypeSieve.Proofs.SkipTypes.Written
import TypeSieve.Proofs.TypeExpr.Written

/-!
# Flags and configuration values

Patterns in flags stand in tuple notation, those in a configuration file are JSON. Both ways give
the same configuration: the patterns of flags, written as a value, are read as what the flags give.
What is no pattern in a flag stops the reading there, and a flag and a value refuse the same types
for empty tuples.
-/

namespace TypeSieve

namespace TypeExpr

/-- A type that is read is refused as a pattern exactly if it has an empty tuple. -/
theorem parsePattern_eq_emptyTuple_iff {text : String} {e : TypeExpr} (h : parse text = .ok e) :
    (∃ shown, parsePattern text = .error (.emptyTuple shown)) ↔ e.hasEmptyTuple = true := by
  rw [parsePattern_of_parse h]
  cases e.hasEmptyTuple <;> simp

/-- A pattern that was read is written and read back if its numbers are integers. -/
theorem writable_of_parsePattern {text : String} {e : TypeExpr} (h : parsePattern text = .ok e)
    (hintegral : e.Integral) : SkipTypes.Writable e := by
  obtain ⟨hparse, hempty⟩ := (parsePattern_eq_ok_iff text e).mp h
  exact ⟨hempty, ofJson_toJson_of_parse hparse hintegral⟩

end TypeExpr

namespace Overrides

variable (config : Option String)

/-- A pattern is read exactly as it is parsed. -/
theorem readPattern_eq_ok_iff (text : String) (e : TypeExpr) :
    readPattern text = .ok e ↔ TypeExpr.parsePattern text = .ok e := mapError_eq_ok_iff

/-- Patterns for all classes are read one by one. -/
theorem skipTypes?_of_skip {texts : List String} (hne : texts ≠ []) :
    skipTypes? ⟨config, texts, []⟩ = (texts.mapM readPattern).map fun patterns =>
      some (.global patterns) := by
  cases texts with
  | nil => exact absurd rfl hne
  | cons => rfl

/-- Entries for single classes are read one by one and gathered. -/
theorem skipTypes?_of_skipFor {entries : List String} (hne : entries ≠ []) :
    skipTypes? ⟨config, [], entries⟩ =
      (entries.mapM readEntry).map fun given =>
        some (.perClass (given.foldl addPattern .empty)) := by
  cases entries with
  | nil => exact absurd rfl hne
  | cons => rfl

/-- Patterns that are accepted are given for all classes in their order. -/
theorem skipTypes?_of_patterns {texts : List String} {patterns : List TypeExpr} (hne : texts ≠ [])
    (h : List.Forall₂ (fun text e => TypeExpr.parsePattern text = .ok e) texts patterns) :
    skipTypes? ⟨config, texts, []⟩ = .ok (some (.global patterns)) := by
  have hread : texts.mapM readPattern = .ok patterns := by
    simpa only [mapM_eq_ok_iff, readPattern_eq_ok_iff] using h
  rw [skipTypes?_of_skip config hne, hread]
  rfl

/-- Entries that are accepted are gathered. -/
theorem skipTypes?_of_entries {entries : List String} {given : List (String × TypeExpr)}
    (hne : entries ≠ []) (h : List.Forall₂ Gives entries given) :
    skipTypes? ⟨config, [], entries⟩ = .ok (some (.perClass (given.foldl addPattern .empty))) := by
  have hread : entries.mapM readEntry = .ok given := by
    simpa only [mapM_eq_ok_iff, readEntry_eq_ok_iff] using h
  rw [skipTypes?_of_skipFor config hne, hread]
  rfl

/-- The first pattern that is not accepted tells how the flags fail. -/
theorem skipTypes?_of_bad_pattern {texts : List String}
    (h : ∃ text ∈ texts, ∀ e, TypeExpr.parsePattern text ≠ .ok e) :
    ∃ before text after e, texts = before ++ text :: after ∧
      (∀ earlier ∈ before, ∃ e, TypeExpr.parsePattern earlier = .ok e) ∧
      TypeExpr.parsePattern text = .error e ∧
      skipTypes? ⟨config, texts, []⟩ = .error (.pattern e) := by
  have hne : texts ≠ [] := by
    rintro rfl
    simp at h
  have hread : ∃ text ∈ texts, ∀ e, readPattern text ≠ .ok e := by
    simpa only [ne_eq, readPattern_eq_ok_iff] using h
  obtain ⟨before, text, after, failure, hsplit, hbefore, htext, hfailure⟩ :=
    mapM_eq_error_of_first hread
  simp only [readPattern_eq_ok_iff] at hbefore
  rw [skipTypes?_of_skip config hne, hfailure]
  cases hpattern : TypeExpr.parsePattern text with
  | ok e =>
    rw [readPattern, hpattern] at htext
    cases htext
  | error e =>
    rw [readPattern, hpattern] at htext
    obtain rfl := Except.error.inj htext
    exact ⟨before, text, after, e, hsplit, hbefore, hpattern, rfl⟩

/-- The first entry that is not accepted tells how the flags fail. -/
theorem skipTypes?_of_bad_entry {entries : List String}
    (h : ∃ entry ∈ entries, ∀ given, ¬ Gives entry given) :
    ∃ before entry after failure, entries = before ++ entry :: after ∧
      (∀ earlier ∈ before, ∃ given, Gives earlier given) ∧
      Refused entry failure ∧ skipTypes? ⟨config, [], entries⟩ = .error failure := by
  have hne : entries ≠ [] := by
    rintro rfl
    simp at h
  have hread : ∃ entry ∈ entries, ∀ given, readEntry entry ≠ .ok given := by
    simpa only [ne_eq, readEntry_eq_ok_iff] using h
  obtain ⟨before, entry, after, failure, hsplit, hbefore, hentry, hfailure⟩ :=
    mapM_eq_error_of_first hread
  simp only [readEntry_eq_ok_iff] at hbefore
  rw [skipTypes?_of_skipFor config hne, hfailure]
  exact ⟨before, entry, after, failure, hsplit, hbefore, refused_of_readEntry hentry, rfl⟩

/-- Accepted patterns with integers only are read from the array of them. -/
theorem ofJson_of_patterns {texts : List String} {patterns : List TypeExpr} (hne : texts ≠ [])
    (h : List.Forall₂ (fun text e => TypeExpr.parsePattern text = .ok e) texts patterns)
    (hintegral : ∀ e ∈ patterns, e.Integral) :
    SkipTypes.ofJson (.array (patterns.map TypeExpr.toJson)) = .ok (.global patterns) := by
  refine SkipTypes.ofJson_array_map_toJson ?_ fun e he => ?_
  · rintro rfl
    exact hne (List.forall₂_nil_right_iff.mp h)
  · obtain ⟨text, -, htext⟩ := exists_of_forall₂ h he
    exact TypeExpr.writable_of_parsePattern htext (hintegral e he)

/-- Gathered patterns with integers only are read from the object of their arrays. -/
theorem ofJson_of_entries {entries : List String} {given : List (String × TypeExpr)}
    (hne : entries ≠ []) (h : List.Forall₂ Gives entries given)
    (hintegral : ∀ entry ∈ given, entry.2.Integral) :
    SkipTypes.ofJson (.ofDict ((given.foldl addPattern .empty).map fun _ patterns =>
      .array (patterns.map TypeExpr.toJson))) =
        .ok (.perClass (given.foldl addPattern .empty)) := by
  refine SkipTypes.ofJson_ofDict_map_toJson
    (isEmpty_gathered ?_) fun className patterns hlist e he => ?_
  · rintro rfl
    exact hne (List.forall₂_nil_right_iff.mp h)
  · rw [get?_gathered] at hlist
    rw [hlist.2] at he
    obtain ⟨entry, hmem, rfl⟩ := List.mem_map.mp he
    have hgiven := List.mem_of_mem_filter hmem
    obtain ⟨text, -, part, -, hpattern⟩ := exists_of_forall₂ h hgiven
    exact TypeExpr.writable_of_parsePattern hpattern (hintegral entry hgiven)

/-- Flags mean what a configuration file means. Accepted patterns are given for all classes in their
order, and accepted entries for single classes give each class that they name, and no other, the
patterns of its entries in their order. Where the numbers are integers, the array of the patterns,
or the object of the arrays of the classes, is read as the same configuration. Otherwise the first
pattern or entry that is not accepted tells how the flags fail, an entry by its form before its
pattern. A type is refused in a flag for an empty tuple exactly if it is refused for one as the only
pattern of a value. -/
theorem flags_mean_values (config : Option String) :
    (∀ texts patterns, texts ≠ [] →
      List.Forall₂ (fun text e => TypeExpr.parsePattern text = .ok e) texts patterns →
        skipTypes? ⟨config, texts, []⟩ = .ok (some (.global patterns)) ∧
          ((∀ e ∈ patterns, e.Integral) →
            SkipTypes.ofJson (.array (patterns.map TypeExpr.toJson)) = .ok (.global patterns))) ∧
    (∀ entries given, entries ≠ [] → List.Forall₂ Gives entries given →
      ∃ lists, skipTypes? ⟨config, [], entries⟩ = .ok (some (.perClass lists)) ∧
        (∀ className patterns, lists.get? className = some patterns ↔
          patterns ≠ [] ∧ patterns = patternsOf given className) ∧
        ((∀ entry ∈ given, entry.2.Integral) →
          SkipTypes.ofJson
            (.ofDict (lists.map fun _ patterns => .array (patterns.map TypeExpr.toJson))) =
            .ok (.perClass lists))) ∧
    (∀ texts, (∃ text ∈ texts, ∀ e, TypeExpr.parsePattern text ≠ .ok e) →
      ∃ before text after e, texts = before ++ text :: after ∧
        (∀ earlier ∈ before, ∃ e, TypeExpr.parsePattern earlier = .ok e) ∧
        TypeExpr.parsePattern text = .error e ∧
        skipTypes? ⟨config, texts, []⟩ = .error (.pattern e)) ∧
    (∀ entries, (∃ entry ∈ entries, ∀ given, ¬ Gives entry given) →
      ∃ before entry after failure, entries = before ++ entry :: after ∧
        (∀ earlier ∈ before, ∃ given, Gives earlier given) ∧
        Refused entry failure ∧ skipTypes? ⟨config, [], entries⟩ = .error failure) ∧
    ∀ text e, TypeExpr.parse text = .ok e →
      ((∃ shown, TypeExpr.parsePattern text = .error (.emptyTuple shown)) ↔
        ∃ className index pattern,
          SkipTypes.ofJson (.array [e.toJson]) = .error (.emptyTuple className index pattern)) := by
  refine ⟨fun texts patterns hne h => ?_, fun entries given hne h => ?_,
    fun texts => skipTypes?_of_bad_pattern config, fun entries => skipTypes?_of_bad_entry config,
    fun text e h => ?_⟩
  · exact ⟨skipTypes?_of_patterns config hne h, ofJson_of_patterns hne h⟩
  · exact ⟨_, skipTypes?_of_entries config hne h, get?_gathered given, ofJson_of_entries hne h⟩
  · rw [TypeExpr.parsePattern_eq_emptyTuple_iff h, SkipTypes.ofJson_singleton_eq_emptyTuple_iff,
      TypeExpr.hasEmptyTuple_ofJson_toJson_of_parse h]

/-- Entries for two classes, those for the first with one for the other between them. -/
def mixedEntries : List String := ["Shape=float64", " Body =(vector, 3)", "Shape=int32"]

/-- What the entries give. -/
def mixedGiven : List (String × TypeExpr) :=
  [("Shape", .leaf "float64"), ("Body", .tuple [.leaf "vector", .literal "3"]),
    ("Shape", .leaf "int32")]

/-- The numbers in what the entries give are integers. -/
theorem integral_mixedGiven : ∀ entry ∈ mixedGiven, entry.2.Integral := by
  have hatoms : ∀ entry ∈ mixedGiven, ∀ atom ∈ entry.2.atoms, atom.isLeaf = true ∨
      atom = .literal "3" := by
    decide +kernel
  intro entry hentry text htext
  rcases hatoms entry hentry _ htext with hleaf | hnumber
  · cases hleaf
  · obtain rfl := TypeExpr.literal.inj hnumber
    exact ⟨3, by decide⟩

/-- The patterns of the first class are gathered around those of the other, and the value of the
lists is read as the same. A pattern or an entry that is not accepted makes the flags fail, and an
empty tuple is refused in both ways. -/
theorem flags_mean_values_mixed :
    List.Forall₂ Gives mixedEntries mixedGiven ∧ (∀ entry ∈ mixedGiven, entry.2.Integral) ∧
      (∃ lists, skipTypes? ⟨none, [], mixedEntries⟩ = .ok (some (.perClass lists)) ∧
        lists.get? "Shape" = some [.leaf "float64", .leaf "int32"] ∧
        SkipTypes.ofJson
          (.ofDict (lists.map fun _ patterns => .array (patterns.map TypeExpr.toJson))) =
          .ok (.perClass lists)) ∧
      SkipTypes.ofJson (.array [.string "float64"]) = .ok (.global [.leaf "float64"]) ∧
      (∃ e, skipTypes? ⟨none, ["float64", "()"], []⟩ = .error (.pattern e)) ∧
      (∃ entry failure, Refused entry failure ∧
        skipTypes? ⟨none, [], ["Shape=float64", "=float64"]⟩ = .error failure) ∧
      ∃ className index pattern, SkipTypes.ofJson (.array [(TypeExpr.tuple []).toJson]) =
        .error (.emptyTuple className index pattern) := by
  obtain ⟨hpatterns, hentries, hbadPattern, hbadEntry, hempty⟩ := flags_mean_values none
  have hgives : List.Forall₂ Gives mixedEntries mixedGiven := by
    have hread : mixedEntries.mapM readEntry = .ok mixedGiven := by decide +kernel
    simpa only [mapM_eq_ok_iff, readEntry_eq_ok_iff] using hread
  have hname : TypeExpr.parsePattern "float64" = .ok (.leaf "float64") := by decide +kernel
  have hrefused : TypeExpr.parsePattern "()" = .error (.emptyTuple "()") := by decide +kernel
  refine ⟨hgives, integral_mixedGiven, ?_, ?_, ?_, ?_, ?_⟩
  · obtain ⟨lists, hlists, hget, hvalue⟩ := hentries mixedEntries mixedGiven (by decide) hgives
    exact ⟨lists, hlists, (hget ..).mpr ⟨by decide, by decide +kernel⟩, hvalue integral_mixedGiven⟩
  · refine (hpatterns ["float64"] [.leaf "float64"] (by decide) (.cons hname .nil)).2 ?_
    intro e he text htext
    obtain rfl := List.mem_singleton.mp he
    cases List.mem_singleton.mp htext
  · obtain ⟨-, -, -, e, -, -, -, he⟩ :=
      hbadPattern ["float64", "()"] ⟨"()", by decide, fun e he => by cases hrefused.symm.trans he⟩
    exact ⟨e, he⟩
  · have hform : ∀ given, ¬ Gives "=float64" given := by
      intro given hgiven
      have hread : readEntry "=float64" = .error (.malformedEntry "=float64") := by decide +kernel
      cases hread.symm.trans ((readEntry_eq_ok_iff ..).mpr hgiven)
    obtain ⟨-, entry, -, failure, -, -, hentry, hfailure⟩ :=
      hbadEntry ["Shape=float64", "=float64"] ⟨"=float64", by decide, hform⟩
    exact ⟨entry, failure, hentry, hfailure⟩
  · exact (hempty "()" (.tuple []) (by decide +kernel)).mp ⟨"()", hrefused⟩

end Overrides

end TypeSieve
