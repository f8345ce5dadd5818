import TypeSieve.Proofs.TypeExpr.Derivable

/-!
# Where refused texts stop being expressions

A text that is no expression is refused with the number of bytes of its longest beginning that is
one. The reader takes character after character and remembers where it last stood on a complete
expression. As it takes a text in one way only, no beginning that it passed over, and none behind
the character that it cannot take, is an expression.
-/

namespace TypeSieve

/-- The longest beginning of a text that has a property, or nothing if no beginning has it. -/
structure LongestBeginning (p : List Char → Prop) (cs front : List Char) : Prop where
  begins : front <+: cs
  holds : front = [] ∨ p front
  longest : ∀ other, other <+: cs → p other → other.length ≤ front.length

/-- A property of no beginning leaves nothing. -/
theorem LongestBeginning.nothing {p : List Char → Prop} {cs : List Char}
    (h : ∀ front, front <+: cs → ¬ p front) : LongestBeginning p cs [] :=
  ⟨List.nil_prefix, .inl rfl, fun other hother hp => absurd hp (h other hother)⟩

namespace TypeExpr.Reading

/-- From here on, one or more characters make a complete expression. -/
def Completes (r : Reading) (cs : List Char) : Prop :=
  cs ≠ [] ∧ ∃ e, (r.run cs).bind complete? = some e

/-- Behind a first character that is taken, the reader completes what it completes from there. -/
theorem completes_cons_iff {r next : Reading} {c : Char} (h : r.step c = some next)
    (cs : List Char) :
    r.Completes (c :: cs) ↔ (cs = [] ∧ next.complete?.isSome = true) ∨ next.Completes cs := by
  have hrun : (r.run (c :: cs)).bind complete? = (next.run cs).bind complete? := by
    rw [run_cons, h, Option.bind_some]
  rw [Completes, Completes, hrun, Option.isSome_iff_exists]
  cases cs with
  | nil => simp
  | cons d rest => simp

/-- Nothing is completed behind a character that is not taken. -/
theorem not_completes_cons {r : Reading} {c : Char} (h : r.step c = none) (cs : List Char) :
    ¬ r.Completes (c :: cs) := by
  rintro ⟨-, e, hrun⟩
  rw [run_cons, h] at hrun
  cases hrun

/-- If nothing is the longest completed beginning, then no beginning is completed. -/
theorem not_completes_of_nothing {r : Reading} {cs : List Char}
    (h : LongestBeginning r.Completes cs []) {other : List Char} (hother : other <+: cs) :
    ¬ r.Completes other := by
  intro hcompletes
  exact hcompletes.1
    (List.length_eq_zero_iff.mp (Nat.le_zero.mp (h.longest other hother hcompletes)))

section Cons

variable {r next : Reading} {c : Char} {rest front : List Char} (h : r.step c = some next)
  (hfront : LongestBeginning next.Completes rest front)
include h hfront

/-- A first character belongs to the longest beginning if the reader stands on a complete expression
behind it, or comes to one later. -/
theorem longest_cons (hsome : front = [] → next.complete?.isSome = true) :
    LongestBeginning r.Completes (c :: rest) (c :: front) where
  begins := List.cons_prefix_cons.mpr ⟨rfl, hfront.begins⟩
  holds := by
    refine .inr ((completes_cons_iff h front).mpr ?_)
    rcases hfront.holds with hnil | hholds
    · exact .inl ⟨hnil, hsome hnil⟩
    · exact .inr hholds
  longest := by
    intro other hother hcompletes
    rcases other with - | ⟨d, more⟩
    · exact Nat.zero_le _
    · obtain ⟨rfl, hmore⟩ := List.cons_prefix_cons.mp hother
      refine Nat.succ_le_succ ?_
      rcases (completes_cons_iff h more).mp hcompletes with ⟨rfl, -⟩ | hbehind
      · exact Nat.zero_le _
      · exact hfront.longest more hmore hbehind

/-- Nothing is the longest beginning if the reader stands on no complete expression behind the first
character, and never comes to one. -/
theorem longest_cons_nothing (hnil : front = []) (hnone : next.complete?.isSome = false) :
    LongestBeginning r.Completes (c :: rest) [] := by
  subst hnil
  refine .nothing fun other hother hcompletes => ?_
  rcases other with - | ⟨d, more⟩
  · exact hcompletes.1 rfl
  · obtain ⟨rfl, hmore⟩ := List.cons_prefix_cons.mp hother
    rcases (completes_cons_iff h more).mp hcompletes with ⟨-, hhere⟩ | hbehind
    · rw [hnone] at hhere
      cases hhere
    · exact not_completes_of_nothing hfront hmore hbehind

end Cons

/-- The bytes of a text with one more character in front. -/
theorem utf8ByteSize_cons (c : Char) (cs : List Char) :
    (String.ofList (c :: cs)).utf8ByteSize = c.utf8Size + (String.ofList cs).utf8ByteSize := by
  rw [← List.singleton_append, String.ofList_append, String.utf8ByteSize_append,
    ← String.singleton_eq_ofList, String.utf8ByteSize_singleton]

/-- The reader counts the bytes of the longest beginning that it completes; where it completes none,
what it had counted before stands. -/
theorem exists_longest_of_reach (r : Reading) (offset best : Nat) (cs : List Char) :
    ∃ front, LongestBeginning r.Completes cs front ∧
      r.reach offset best cs = if front = [] then best
        else offset + (String.ofList front).utf8ByteSize := by
  induction cs generalizing r offset best with
  | nil =>
    refine ⟨[], .nothing fun front hfront hcompletes => ?_, by rw [reach, if_pos rfl]⟩
    exact hcompletes.1 (List.prefix_nil.mp hfront)
  | cons c rest ih =>
    rw [reach]
    cases hstep : r.step c with
    | none =>
      refine ⟨[], .nothing fun front hfront hcompletes => ?_, by rw [if_pos rfl]⟩
      rcases front with - | ⟨d, more⟩
      · exact hcompletes.1 rfl
      · obtain ⟨rfl, -⟩ := List.cons_prefix_cons.mp hfront
        exact not_completes_cons hstep more hcompletes
    | some next =>
      dsimp only
      obtain ⟨front, hfront, heq⟩ :=
        ih next (offset + c.utf8Size) (if next.complete?.isSome then offset + c.utf8Size else best)
      rw [heq]
      by_cases hnil : front = []
      · cases hhere : next.complete?.isSome with
        | false =>
          refine ⟨[], longest_cons_nothing hstep hfront hnil hhere, ?_⟩
          rw [if_pos hnil, if_pos rfl, if_neg Bool.false_ne_true]
        | true =>
          refine ⟨c :: front, longest_cons hstep hfront fun _ => hhere, ?_⟩
          rw [if_pos hnil, if_pos rfl, if_neg (List.cons_ne_nil _ _), hnil, utf8ByteSize_cons]
          rfl
      · refine ⟨c :: front, longest_cons hstep hfront fun h => absurd h hnil, ?_⟩
        rw [if_neg hnil, if_neg (List.cons_ne_nil _ _), utf8ByteSize_cons, Nat.add_assoc]

end TypeExpr.Reading

namespace TypeExpr

/-- A text is an expression, with the spacing around it. -/
def Spelled (cs : List Char) : Prop := ∃ e, Notation.Expr cs e

/-- From the start, the reader completes the expressions. -/
theorem completes_start_iff (cs : List Char) : Reading.start.Completes cs ↔ Spelled cs := by
  have hread : ∀ e, (Reading.start.run cs).bind Reading.complete? = some e ↔ Notation.Expr cs e :=
    ofChars?_eq_some_iff cs
  simp only [Reading.Completes, hread, Spelled, and_iff_right_iff_imp]
  rintro ⟨e, he⟩ rfl
  have hnone := (hread e).mpr he
  cases hnone

/-- From the start, the reader counts the bytes of the longest beginning that is an expression. -/
theorem exists_longest_of_reach_start (cs : List Char) :
    ∃ front, LongestBeginning Spelled cs front ∧
    Reading.start.reach 0 0 cs = (String.ofList front).utf8ByteSize := by
  obtain ⟨front, hfront, heq⟩ := Reading.start.exists_longest_of_reach 0 0 cs
  rw [show Reading.start.Completes = Spelled from funext fun cs => propext (completes_start_iff cs)]
    at hfront
  refine ⟨front, hfront, ?_⟩
  rw [heq]
  split
  · next hnil =>
    rw [hnil]
    rfl
  · exact Nat.zero_add _

/-- A text that is not blank and is no expression is refused at the end of its longest beginning
that is an expression, the spacing behind it included, and at 0 if no beginning is one. Blanks at
both ends do not count. The end lies between two characters, before the last one, and the message
tells it in bytes. -/
theorem refused_behind_longest_expr (text : String) (hvisible : ∃ c ∈ text.toList, c ∉ Text.blanks)
    (hrefused : ∀ e, parse text ≠ .ok e) :
    ∃ body front, Text.Stripped text.toList body ∧ LongestBeginning Spelled body front ∧
      parse text = .error (.malformed (String.ofList body) (String.ofList front).utf8ByteSize) ∧
      (PatternError.malformed (String.ofList body) (String.ofList front).utf8ByteSize).message =
        "invalid type pattern '" ++ String.ofList body ++ "': ParseError \x7b input: " ++
          Text.quote (String.ofList body) ++ ", offset: " ++
          toString (String.ofList front).utf8ByteSize ++
          ", inner: ContextError \x7b context: [], cause: None \x7d \x7d" ∧
      (String.ofList front).rawEndPos.IsValid (String.ofList body) ∧
      (String.ofList front).utf8ByteSize < (String.ofList body).utf8ByteSize := by
  have hbody : Text.trimChars text.toList ≠ [] := by
    rw [ne_eq, ← Text.all_isBlank_iff, Bool.not_eq_true, Text.all_isBlank_eq_false_iff]
    exact hvisible
  have hnone : ofChars? (Text.trimChars text.toList) = none := by
    cases hread : ofChars? (Text.trimChars text.toList) with
    | none => rfl
    | some e => exact absurd ((parse_eq_ok_iff text e).mpr hread) (hrefused e)
  obtain ⟨front, hfront, hreach⟩ := exists_longest_of_reach_start (Text.trimChars text.toList)
  obtain ⟨rest, hrest⟩ := hfront.begins
  have hmore : rest ≠ [] := by
    rintro rfl
    rw [List.append_nil] at hrest
    rcases hfront.holds with hnil | ⟨e, he⟩
    · exact hbody (hrest.symm.trans hnil)
    · rw [hrest, ← ofChars?_eq_some_iff, hnone] at he
      cases he
  refine ⟨_, front, Text.stripped_trimChars _, hfront, ?_, rfl, ?_, ?_⟩
  · simp only [parse, if_neg hbody, hnone, hreach]
  · rw [String.Pos.Raw.isValid_iff_exists_append]
    exact ⟨String.ofList front, String.ofList rest, by rw [← String.ofList_append, hrest], rfl⟩
  · obtain ⟨c, more, rfl⟩ := List.exists_cons_of_ne_nil hmore
    rw [← hrest, String.ofList_append, String.utf8ByteSize_append, Reading.utf8ByteSize_cons]
    have hpos := Char.utf8Size_pos c
    omega

/-- A tuple with spacing behind it, and more text behind that. -/
def tupleAndMore : String := " ('ü', b) \n c\u00a0"

/-- A tuple in a tuple that does not end. -/
def openTuple : String := "(a, (b, c)"

/-- The tuple and its spacing have 12 bytes. Of a tuple that does not end no beginning is an
expression. -/
theorem refused_behind_longest_expr_tuples :
    (((∃ c ∈ tupleAndMore.toList, c ∉ Text.blanks) ∧ ∀ e, parse tupleAndMore ≠ .ok e) ∧
      ∃ body front, Text.Stripped tupleAndMore.toList body ∧ LongestBeginning Spelled body front ∧
        (String.ofList front).utf8ByteSize = 12 ∧
        parse tupleAndMore = .error (.malformed (String.ofList body) 12)) ∧
    ((∃ c ∈ openTuple.toList, c ∉ Text.blanks) ∧ ∀ e, parse openTuple ≠ .ok e) ∧
      ∃ body, LongestBeginning Spelled body [] ∧
        parse openTuple = .error (.malformed (String.ofList body) 0) := by
  have hmore : parse tupleAndMore = .error (.malformed "('ü', b) \n c" 12) := by decide +kernel
  have hopen : parse openTuple = .error (.malformed "(a, (b, c)" 0) := by decide +kernel
  have hrefused : ∀ {text shown : String} {offset : Nat},
      parse text = .error (.malformed shown offset) → ∀ e, parse text ≠ .ok e := by
    intro text shown offset h e hok
    rw [h] at hok
    cases hok
  have hvisible : ∃ c ∈ tupleAndMore.toList, c ∉ Text.blanks :=
    ⟨'b', by decide +kernel, by decide +kernel⟩
  have hvisible' : ∃ c ∈ openTuple.toList, c ∉ Text.blanks :=
    ⟨'b', by decide +kernel, by decide +kernel⟩
  obtain ⟨body, front, hbody, hfront, hparse, -⟩ :=
    refused_behind_longest_expr tupleAndMore hvisible (hrefused hmore)
  obtain ⟨other, nothing, -, hnothing, hparse', -⟩ :=
    refused_behind_longest_expr openTuple hvisible' (hrefused hopen)
  have hsize : (String.ofList front).utf8ByteSize = 12 := by
    rw [hmore, Except.error.injEq, PatternError.malformed.injEq] at hparse
    exact hparse.2.symm
  have hsize' : (String.ofList nothing).utf8ByteSize = 0 := by
    rw [hopen, Except.error.injEq, PatternError.malformed.injEq] at hparse'
    exact hparse'.2.symm
  have hnil : nothing = [] := by
    simpa [String.utf8ByteSize_eq_zero_iff] using hsize'
  rw [hsize] at hparse
  rw [hsize'] at hparse'
  exact ⟨⟨⟨hvisible, hrefused hmore⟩, body, front, hbody, hfront, hsize, hparse⟩,
    ⟨hvisible', hrefused hopen⟩, other, hnil ▸ hnothing, hparse'⟩

end TypeExpr

end TypeSieve
