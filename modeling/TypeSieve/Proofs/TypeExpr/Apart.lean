import TypeSieve.Proofs.Json.Nesting
import TypeSieve.Proofs.TypeExpr.Canonical
import TypeSieve.Proofs.TypeExpr.Seams

/-!
# Types that are shown apart

A notation of a type that is followed by a comma, a parenthesis, a space or nothing ends at one
place, and different types have different notations there. This holds of types whose literals are
texts of JSON values, as those that were read are, and in which no name shown bare is such a text
itself.
-/

namespace TypeSieve

namespace Text

/-- Different numbers have different hexadecimal digits. -/
theorem hexDigits_inj {m n : Nat} (h : hexDigits m = hexDigits n) : m = n := by
  have hlarge : ∀ {k}, ¬ k < 16 → hexDigits k = hexDigits (k / 16) ++ [Nat.digitChar (k % 16)] :=
    fun hk => Nat.toDigits_of_base_le (by decide) (by omega)
  have hsmall : ∀ {k}, k < 16 → hexDigits k = [Nat.digitChar k] :=
    fun hk => Nat.toDigits_of_lt_base hk
  have hdigit : ∀ i < 16, ∀ j < 16, Nat.digitChar i = Nat.digitChar j → i = j := by decide
  have hne : ∀ k, hexDigits k ≠ [] := fun k => Nat.toDigits_ne_nil
  induction m using Nat.strongRecOn generalizing n with
  | ind m ih =>
    by_cases hm : m < 16
    · by_cases hn : n < 16
      · rw [hsmall hm, hsmall hn] at h
        exact hdigit m hm n hn (List.singleton_inj.mp h)
      · rw [hsmall hm, hlarge hn] at h
        exact absurd (List.append_eq_singleton_iff.mp h.symm) (by simp [hne])
    · by_cases hn : n < 16
      · rw [hlarge hm, hsmall hn] at h
        exact absurd (List.append_eq_singleton_iff.mp h) (by simp [hne])
      · rw [hlarge hm, hlarge hn] at h
        obtain ⟨hfront, hlast⟩ := List.append_inj' h rfl
        have hquotient := ih (m / 16) (by omega) hfront
        have hrest := hdigit (m % 16) (by omega) (n % 16) (by omega) (List.singleton_inj.mp hlast)
        omega

/-- Codes between braces in the same place are the same. -/
theorem hexDigits_append_inj {m n : Nat} {x y : List Char}
    (h : hexDigits m ++ '\x7d' :: x = hexDigits n ++ '\x7d' :: y) : m = n ∧ x = y := by
  have hdigits : ∀ k, ∀ c ∈ hexDigits k, c ≠ '\x7d' := by
    rintro k c hc rfl
    exact not_mem_hexDigits (by decide) k hc
  obtain ⟨hcodes, hrest⟩ :=
    Notation.append_inj_of_runs (hdigits m) (hdigits n) (by simp) (by simp) h
  exact ⟨hexDigits_inj hcodes, (List.cons.inj hrest).2⟩

/-- Escaped characters in the same place are the same. -/
theorem escapeChar_append_inj {c d : Char} {x y : List Char}
    (h : escapeChar c ++ x = escapeChar d ++ y) : c = d ∧ x = y := by
  have hshort : ∀ p ∈ shortEscapes, ∀ q ∈ shortEscapes, p.2 = q.2 → p.1 = q.1 := by decide
  have hu : ∀ p ∈ shortEscapes, p.2 ≠ 'u' := by decide
  rcases escapeChar_cases c with ⟨e, hc, he⟩ | ⟨hc, hquote, hslash⟩ | hc <;>
    rcases escapeChar_cases d with ⟨e', hd, he'⟩ | ⟨hd, hquote', hslash'⟩ | hd <;>
      rw [hc, hd] at h
  · obtain ⟨-, h⟩ := List.cons.inj h
    obtain ⟨heq, hrest⟩ := List.cons.inj h
    exact ⟨hshort _ he _ he' heq, hrest⟩
  · exact absurd (List.cons.inj h).1.symm hslash'
  · exact absurd (List.cons.inj (List.cons.inj h).2).1 (hu _ he)
  · exact absurd (List.cons.inj h).1 hslash
  · exact List.cons.inj h
  · exact absurd (List.cons.inj h).1 hslash
  · exact absurd (List.cons.inj (List.cons.inj h).2).1.symm (hu _ he')
  · exact absurd (List.cons.inj h).1.symm hslash'
  · simp only [List.cons_append, List.append_assoc, List.nil_append, List.cons.injEq, true_and] at h
    obtain ⟨hcode, hrest⟩ := hexDigits_append_inj h
    exact ⟨Char.toNat_inj.mp hcode, hrest⟩

/-- No escaped character begins with a quote. -/
theorem escapeChar_append_ne_quote (c : Char) (x y : List Char) : escapeChar c ++ x ≠ '"' :: y := by
  intro h
  rcases escapeChar_cases c with ⟨e, hc, -⟩ | ⟨hc, hquote, -⟩ | hc
  · rw [hc] at h
    exact absurd (List.cons.inj h).1 (by decide)
  · rw [hc] at h
    exact hquote (List.cons.inj h).1
  · rw [hc] at h
    exact absurd (List.cons.inj h).1 (by decide)

/-- Quoted texts in the same place are the same. -/
theorem quoteChars_append_inj {a b x y : List Char} (h : quoteChars a ++ x = quoteChars b ++ y) :
    a = b ∧ x = y := by
  simp only [quoteChars, List.cons_append, List.append_assoc, List.nil_append,
    List.cons.injEq, true_and] at h
  induction a generalizing b with
  | nil =>
    cases b with
    | nil => exact ⟨rfl, (List.cons.inj h).2⟩
    | cons d rest =>
      rw [List.flatMap_cons, List.append_assoc] at h
      exact absurd h.symm (escapeChar_append_ne_quote d _ _)
  | cons c rest ih =>
    cases b with
    | nil =>
      rw [List.flatMap_cons, List.append_assoc] at h
      exact absurd h (escapeChar_append_ne_quote c _ _)
    | cons d more =>
      rw [List.flatMap_cons, List.flatMap_cons, List.append_assoc, List.append_assoc] at h
      obtain ⟨rfl, htail⟩ := escapeChar_append_inj h
      obtain ⟨rfl, hrest⟩ := ih htail
      exact ⟨rfl, hrest⟩

end Text

namespace TypeExpr

open Notation (Bare EndsRun itemsChars lastComma renderChars_tuple renderRest_cons)

variable {s t : String} {a b : TypeExpr} {x y : List Char}

/-- The text of a JSON value that is neither a string nor an array. -/
def LiteralText (text : String) : Prop := ∃ value : Json, value.IsLiteral ∧ value.compact = text

/-- A text that begins as no value other than a string does is no text of a literal. -/
theorem not_literalText_of_head {c : Char} (hhead : t.toList.head? = some c)
    (hword : c ∉ ['[', '\x7b', 'n', 't', 'f']) (hnumber : ¬ Json.NumberChar c) :
    ¬ LiteralText t := by
  rintro ⟨value, hliteral, rfl⟩
  refine Json.head?_compact_ne ?_ hword hnumber hhead
  rintro text rfl
  exact hliteral

/-- The literals in a type that was read have the texts of literal values. -/
theorem literalText_of_mem_atoms {value : Json} (h : .literal t ∈ (ofJson value).atoms) :
    LiteralText t := by
  induction value using Json.ind with
  | string name => cases List.mem_singleton.mp h
  | array items ih =>
    rw [ofJson, ofJsonItems_eq_map, atoms_tuple, List.flatMap_map] at h
    obtain ⟨item, hitem, hmem⟩ := List.mem_flatMap.mp h
    exact ih item hitem hmem
  | null | bool _ | integer _ | double _ | object _ _ =>
    exact ⟨_, (ofJson_eq_literal_iff _ t).mp (List.mem_singleton.mp h).symm⟩

/-- An atom that is not shown as another is: a name between quotes, a bare name that is no text of a
literal, or a literal with such a text. -/
inductive Distinct : TypeExpr → Prop
  | quoted {name : String} : needsQuotes name.toList = true → Distinct (.leaf name)
  | bare {name : String} : needsQuotes name.toList = false → ¬ LiteralText name →
      Distinct (.leaf name)
  | literal {text : String} : LiteralText text → Distinct (.literal text)

/-- A text is empty or begins with what may stand behind a type. -/
def Ends (cs : List Char) : Prop := ∀ c ∈ cs.head?, c ∈ [',', ')', ' ']

/-- What may stand behind a type ends a bare run. -/
theorem Ends.endsRun (h : Ends x) : EndsRun x := by
  intro c hc
  have hend := h c hc
  simp only [List.mem_cons, List.not_mem_nil, or_false] at hend
  rcases hend with rfl | rfl | rfl <;> decide

/-- The characters of words and numerals are bare. -/
theorem isBare_of_isRunChar {c : Char} (hc : Json.isRunChar c = true) : isBare c = true := by
  have hnone : (Text.blanks ++ ['(', ')', ',', '"', '\'']).all (fun d => !Json.isRunChar d) =
      true := by decide
  have hbare : Bare [c] := by
    refine ⟨List.cons_ne_nil _ _, fun d hd => ?_⟩
    obtain rfl := List.mem_singleton.mp hd
    rw [← not_or, ← List.mem_append]
    exact fun hmem => absurd hc (by simpa using List.all_eq_true.mp hnone d hmem)
  simpa using (Notation.bare_iff [c]).mp hbare

/-- A text that is shown as it is: a bare run, or the text of an object. -/
def Unquoted (text : String) : Prop :=
  Bare text.toList ∨ ∃ members, text.toList = (Json.object members).compactChars

/-- The text of a literal is shown as it is. -/
theorem LiteralText.unquoted (h : LiteralText t) : Unquoted t := by
  obtain ⟨value, hliteral, rfl⟩ := h
  rw [Unquoted, Json.compact, String.toList_ofList]
  by_cases hcomposite : value.IsComposite
  · cases value with
    | object members => exact .inr ⟨members, rfl⟩
    | array items => exact hliteral.elim
    | null | bool _ | integer _ | double _ | string _ => exact hcomposite.elim
  · have hstring : ∀ text, value ≠ .string text := by
      rintro text rfl
      exact hliteral
    obtain ⟨hne, hrun⟩ := Json.runChars_compactChars hstring hcomposite
    exact .inl ((Notation.bare_iff _).mpr ⟨hne, fun c hc => isBare_of_isRunChar (hrun c hc)⟩)

/-- A text that is shown as it is begins with neither a quote nor a parenthesis. -/
theorem Unquoted.head (h : Unquoted t) : ∃ c rest, t.toList = c :: rest ∧ c ∉ ['"', '(', ')'] := by
  rcases h with ⟨hne, hbare⟩ | ⟨members, hmembers⟩
  · obtain ⟨c, rest, hcs⟩ := List.exists_cons_of_ne_nil hne
    have hc := (hbare c (by simp [hcs])).2
    refine ⟨c, rest, hcs, fun hmem => hc ?_⟩
    simp only [List.mem_cons, List.not_mem_nil, or_false] at hmem ⊢
    tauto
  · exact ⟨_, _, hmembers, by decide⟩

/-- A bare run and the text of an object in the same place are the same: the object is empty. -/
theorem bare_append_inj_object {cs : List Char} {members : List (String × Json)} (hbare : Bare cs)
    (hx : Ends x) (hy : Ends y) (h : cs ++ x = (Json.object members).compactChars ++ y) :
    cs = (Json.object members).compactChars ∧ x = y := by
  cases members with
  | nil =>
    have hempty : Bare ['\x7b', '\x7d'] :=
      (Notation.bare_iff _).mpr ⟨List.cons_ne_nil _ _, List.all_eq_true.mp rfl⟩
    exact hbare.append_inj hempty hx.endsRun hy.endsRun h
  | cons member rest =>
    -- The run would end before the first key, which stands between quotes.
    obtain ⟨tail, htail⟩ : ∃ tail, (Json.object (member :: rest)).compactChars =
        '\x7b' :: '"' :: tail := ⟨_, rfl⟩
    have hopen : Bare ['\x7b'] :=
      (Notation.bare_iff _).mpr ⟨List.cons_ne_nil _ _, List.all_eq_true.mp rfl⟩
    have hquote : EndsRun ('"' :: tail ++ y) := by
      intro c hc
      obtain rfl := Option.some.inj hc
      decide
    rw [htail] at h
    obtain ⟨-, rfl⟩ := hbare.append_inj hopen hx.endsRun hquote h
    exact absurd (hx '"' rfl) (by decide)

/-- Texts that are shown as they are, in the same place, are the same. -/
theorem Unquoted.append_inj (hs : Unquoted s) (ht : Unquoted t) (hx : Ends x) (hy : Ends y)
    (h : s.toList ++ x = t.toList ++ y) : s = t ∧ x = y := by
  have hchars : s.toList = t.toList ∧ x = y := by
    rcases hs with hs | ⟨members, hs⟩ <;> rcases ht with ht | ⟨others, ht⟩
    · exact hs.append_inj ht hx.endsRun hy.endsRun h
    · rw [ht] at h ⊢
      exact bare_append_inj_object hs hx hy h
    · rw [hs] at h ⊢
      obtain ⟨heq, hrest⟩ := bare_append_inj_object ht hy hx h.symm
      exact ⟨heq.symm, hrest.symm⟩
    · rw [hs, ht] at h ⊢
      exact Json.IsComposite.append_inj (a := .object members)
        (b := .object others) trivial trivial h
  exact ⟨String.toList_inj.mp hchars.1, hchars.2⟩

/-- Two types are apart if in the same place they are shown alike only where they are the same. -/
def Apart (a b : TypeExpr) : Prop :=
  ∀ ⦃x y⦄, Ends x → Ends y → renderChars a ++ x = renderChars b ++ y → a = b ∧ x = y

/-- What is apart from another has the other apart from it. -/
theorem Apart.symm (h : Apart a b) : Apart b a := by
  intro x y hx hy heq
  obtain ⟨hsame, hrest⟩ := h hy hx heq.symm
  exact ⟨hsame.symm, hrest.symm⟩

/-- Types that are shown with different first characters are apart. -/
theorem apart_of_heads {c d : Char} {cs ds : List Char} (hne : c ≠ d) (ha : renderChars a = c :: cs)
    (hb : renderChars b = d :: ds) : Apart a b := by
  intro x y _ _ h
  rw [ha, hb] at h
  exact absurd (List.cons.inj h).1 hne

/-- A name that needs quotes is shown between them. -/
theorem renderChars_quoted {name : String} (h : needsQuotes name.toList = true) :
    renderChars (.leaf name) = Text.quoteChars name.toList := by
  rw [renderChars, leafChars, if_pos h]

/-- A name that needs no quotes is shown as it is. -/
theorem renderChars_bare {name : String} (h : needsQuotes name.toList = false) :
    renderChars (.leaf name) = name.toList := by
  rw [renderChars, leafChars, h]
  rfl

/-- A distinct atom is a name between quotes or a text that is shown as it is. -/
theorem Distinct.cases (h : Distinct a) :
    (∃ name, a = .leaf name ∧ renderChars a = Text.quoteChars name.toList) ∨
      ∃ text, Unquoted text ∧ renderChars a = text.toList ∧
        (a = .leaf text ∧ ¬ LiteralText text ∨ a = .literal text ∧ LiteralText text) := by
  cases h with
  | quoted hquotes => exact .inl ⟨_, rfl, renderChars_quoted hquotes⟩
  | bare hquotes hliteral =>
    exact .inr ⟨_, .inl (Notation.bare_of_needsQuotes hquotes),
      renderChars_bare hquotes, .inl ⟨rfl, hliteral⟩⟩
  | literal hliteral => exact .inr ⟨_, hliteral.unquoted, rfl, .inr ⟨rfl, hliteral⟩⟩

/-- Distinct atoms are apart. -/
theorem Distinct.apart (ha : Distinct a) (hb : Distinct b) : Apart a b := by
  have hquote : ∀ {text : String}, Unquoted text → ∃ c rest, text.toList = c :: rest ∧ '"' ≠ c := by
    intro text htext
    obtain ⟨c, rest, hcs, hc⟩ := htext.head
    exact ⟨c, rest, hcs, fun heq => hc (by simp [← heq])⟩
  rcases ha.cases with ⟨name, rfl, ha⟩ | ⟨text, htext, ha, hatext⟩ <;>
    rcases hb.cases with ⟨other, rfl, hb⟩ | ⟨more, hmore, hb, hbtext⟩
  · intro x y _ _ h
    rw [ha, hb] at h
    obtain ⟨hname, hrest⟩ := Text.quoteChars_append_inj h
    exact ⟨by rw [String.toList_inj.mp hname], hrest⟩
  · obtain ⟨c, rest, hcs, hc⟩ := hquote hmore
    exact apart_of_heads hc ha (hb.trans hcs)
  · obtain ⟨c, rest, hcs, hc⟩ := hquote htext
    exact apart_of_heads hc.symm (ha.trans hcs) hb
  · intro x y hx hy h
    rw [ha, hb] at h
    obtain ⟨rfl, hrest⟩ := htext.append_inj hmore hx hy h
    refine ⟨?_, hrest⟩
    rcases hatext with ⟨rfl, hname⟩ | ⟨rfl, hliteral⟩ <;>
      rcases hbtext with ⟨rfl, hother⟩ | ⟨rfl, hliteral'⟩
    · rfl
    · exact absurd hliteral' hname
    · exact absurd hliteral hother
    · rfl

/-- No item of a tuple begins as a tuple ends. -/
theorem head_renderChars (h : ∀ atom ∈ a.atoms, Distinct atom) :
    ∃ c rest, renderChars a = c :: rest ∧ c ≠ ')' := by
  have hatom : Distinct a → ∃ c rest, renderChars a = c :: rest ∧ c ≠ ')' := by
    intro ha
    rcases ha.cases with ⟨name, -, ha⟩ | ⟨text, htext, ha, -⟩
    · exact ⟨_, _, ha, by decide⟩
    · obtain ⟨c, rest, hcs, hc⟩ := htext.head
      exact ⟨c, rest, ha.trans hcs, fun heq => hc (by simp [heq])⟩
  cases a with
  | leaf name => exact hatom (h _ (List.mem_singleton_self _))
  | literal text => exact hatom (h _ (List.mem_singleton_self _))
  | tuple items => exact ⟨_, _, renderChars_tuple items, by decide⟩

/-- Behind an item of a tuple stands a comma or the end of the tuple. -/
theorem ends_renderRest (items : List TypeExpr) (x : List Char) :
    Ends (renderRest items ++ ')' :: x) := by
  intro c hc
  cases items with
  | nil =>
    obtain rfl := Option.some.inj hc
    decide
  | cons item rest =>
    obtain rfl := Option.some.inj hc
    decide

section Tuples

variable {items others : List TypeExpr}

/-- Further items of tuples in the same place are the same if all items are apart. -/
theorem renderRest_append_inj (h : ∀ item ∈ items, ∀ other ∈ others, Apart item other)
    (heq : renderRest items ++ ')' :: x = renderRest others ++ ')' :: y) :
    items = others ∧ x = y := by
  induction items generalizing others with
  | nil =>
    cases others with
    | nil => exact ⟨rfl, (List.cons.inj heq).2⟩
    | cons other more =>
      rw [renderRest_cons] at heq
      exact absurd (List.cons.inj heq).1 (by decide)
  | cons item rest ih =>
    cases others with
    | nil =>
      rw [renderRest_cons] at heq
      exact absurd (List.cons.inj heq).1 (by decide)
    | cons other more =>
      simp only [renderRest_cons, itemsChars, List.cons_append, List.append_assoc,
        List.cons.injEq, true_and] at heq
      obtain ⟨rfl, htail⟩ := h item (List.mem_cons_self ..) other (List.mem_cons_self ..)
        (ends_renderRest rest x) (ends_renderRest more y) heq
      obtain ⟨rfl, hrest⟩ :=
        ih (fun item hitem other hother => h item (List.mem_cons_of_mem _ hitem) other
          (List.mem_cons_of_mem _ hother)) htail
      exact ⟨rfl, hrest⟩

/-- Behind the first item of a tuple stand its further items, or a comma, and the end of the
tuple. -/
theorem renderChars_tuple_cons (item : TypeExpr) (rest : List TypeExpr) :
    renderChars (.tuple (item :: rest)) =
      '(' :: (renderChars item ++ ((if rest = [] then [','] else renderRest rest) ++ [')'])) := by
  rw [renderChars_tuple]
  cases rest <;> simp [itemsChars, lastComma, renderRest]

/-- Tuples with an item are apart if all their items are. -/
theorem apart_tuple_cons {item other : TypeExpr} {rest more : List TypeExpr}
    (h : ∀ e ∈ item :: rest, ∀ e' ∈ other :: more, Apart e e') :
    Apart (.tuple (item :: rest)) (.tuple (other :: more)) := by
  have hends : ∀ (tail : List TypeExpr) (z : List Char),
      Ends ((if tail = [] then [','] else renderRest tail) ++ ([')'] ++ z)) := by
    intro tail z
    split
    · exact fun c hc => by simp [← Option.some.inj hc]
    · exact ends_renderRest tail z
  intro x y hx hy heq
  simp only [renderChars_tuple_cons, List.cons_append, List.append_assoc, List.cons.injEq, true_and]
    at heq
  obtain ⟨rfl, htail⟩ := h item (List.mem_cons_self ..) other (List.mem_cons_self ..) (hends rest x)
    (hends more y) heq
  have hrest : rest = more ∧ x = y := by
    cases rest with
    | nil =>
      cases more with
      | nil => simpa using htail
      | cons next more => simp [renderRest_cons] at htail
    | cons next rest =>
      cases more with
      | nil => simp [renderRest_cons] at htail
      | cons next' more =>
        refine renderRest_append_inj (fun e he e' he' => ?_) htail
        exact h e (List.mem_cons_of_mem _ he) e' (List.mem_cons_of_mem _ he')
  exact ⟨by rw [hrest.1], hrest.2⟩

/-- The empty tuple is apart from a tuple whose first item does not begin with a closing
parenthesis. -/
theorem apart_tuple_nil {item : TypeExpr} (hitem : ∃ c cs, renderChars item = c :: cs ∧ c ≠ ')')
    (rest : List TypeExpr) : Apart (.tuple []) (.tuple (item :: rest)) := by
  obtain ⟨c, cs, hcs, hc⟩ := hitem
  intro x y _ _ heq
  rw [renderChars_tuple_cons, hcs] at heq
  exact absurd (List.cons.inj (List.cons.inj heq).2).1.symm hc

end Tuples

/-- Types with distinct atoms are apart. -/
theorem apart_of_distinct (ha : ∀ atom ∈ a.atoms, Distinct atom)
    (hb : ∀ atom ∈ b.atoms, Distinct atom) : Apart a b := by
  -- A tuple begins with a parenthesis, and an atom does not.
  have htuple : ∀ {e : TypeExpr} (items : List TypeExpr), Distinct e → Apart e (.tuple items) := by
    intro e items he
    rcases he.cases with ⟨name, -, he⟩ | ⟨text, htext, he, -⟩
    · exact apart_of_heads (by decide) he (renderChars_tuple items)
    · obtain ⟨c, rest, hcs, hc⟩ := htext.head
      exact apart_of_heads (fun heq => hc (by simp [heq])) (he.trans hcs) (renderChars_tuple items)
  induction a using TypeExpr.ind generalizing b with
  | leaf name =>
    have hname := ha _ (List.mem_singleton_self _)
    cases b with
    | leaf other => exact hname.apart (hb _ (List.mem_singleton_self _))
    | literal text => exact hname.apart (hb _ (List.mem_singleton_self _))
    | tuple others => exact htuple others hname
  | literal text =>
    have htext := ha _ (List.mem_singleton_self _)
    cases b with
    | leaf other => exact htext.apart (hb _ (List.mem_singleton_self _))
    | literal text => exact htext.apart (hb _ (List.mem_singleton_self _))
    | tuple others => exact htuple others htext
  | tuple items ih =>
    cases b with
    | leaf other => exact (htuple items (hb _ (List.mem_singleton_self _))).symm
    | literal text => exact (htuple items (hb _ (List.mem_singleton_self _))).symm
    | tuple others =>
      rw [forall_mem_atoms_tuple] at ha hb
      have hitems : ∀ item ∈ items, ∀ other ∈ others, Apart item other :=
        fun item hitem other hother => ih item hitem (ha item hitem) (hb other hother)
      cases items with
      | nil =>
        cases others with
        | nil => exact fun x y _ _ h => ⟨rfl, List.append_cancel_left h⟩
        | cons other more =>
          exact apart_tuple_nil (head_renderChars (hb other (List.mem_cons_self ..))) more
      | cons item rest =>
        cases others with
        | nil =>
          exact (apart_tuple_nil (head_renderChars (ha item (List.mem_cons_self ..))) rest).symm
        | cons other more => exact apart_tuple_cons hitems

end TypeExpr

end TypeSieve
