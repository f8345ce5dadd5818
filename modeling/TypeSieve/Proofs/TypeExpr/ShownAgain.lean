import TypeSieve.Proofs.Json.Readings
import TypeSieve.Proofs.TypeExpr.Quotes
import TypeSieve.Proofs.TypeExpr.Shown

/-!
# Showing what was read

What was read from a text is not always read back from its notation. Its names that stood bare in
the text and its integers are, but a quoted name that holds escapes or spells a number is shown as
something else, and a binary64 number may be read as a neighbour of it.
-/

namespace TypeSieve

namespace Notation

open TypeExpr (renderChars needsQuotes)

/-- An atom of a type is spelled somewhere in a text. -/
def SpelledIn (text : List Char) (atom : TypeExpr) : Prop := ∃ body, body <:+: text ∧ Atom body atom

/-- What is spelled in a part of a text is spelled in the text. -/
theorem SpelledIn.mono {part text : List Char} {atom : TypeExpr} (h : SpelledIn part atom)
    (hpart : part <:+: text) : SpelledIn text atom := by
  obtain ⟨body, hbody, hatom⟩ := h
  exact ⟨body, hbody.trans hpart, hatom⟩

/-- The atoms of items are spelled in the text of the items. -/
theorem Items.spelledIn {cs : List Char} {items : List TypeExpr}
    (hspelled : ∀ item ∈ items, ∀ {text}, Expr text item → ∀ atom ∈ item.atoms, SpelledIn text atom)
    (h : Items cs items) : ∀ item ∈ items, ∀ atom ∈ item.atoms, SpelledIn cs atom := by
  induction items generalizing cs with
  | nil => exact fun _ hmem => nomatch hmem
  | cons item rest ih =>
    obtain ⟨hfirst, hrest⟩ := List.forall_mem_cons.mp hspelled
    cases h with
    | one he => exact List.forall_mem_singleton.mpr (hfirst he)
    | @more first behind _ _ he hbehind =>
      refine List.forall_mem_cons.mpr ⟨fun atom hatom => ?_, fun other hother atom hatom => ?_⟩
      · exact (hfirst he atom hatom).mono (List.prefix_append ..).isInfix
      · have hpart : behind <:+: first ++ ',' :: behind :=
          ((List.suffix_cons ..).trans (List.suffix_append ..)).isInfix
        exact (ih hrest hbehind other hother atom hatom).mono hpart

/-- The atoms of a tuple are spelled in the text of the tuple. -/
theorem Tuple.spelledIn {cs : List Char} {items : List TypeExpr}
    (hspelled : ∀ item ∈ items, ∀ {text}, Expr text item → ∀ atom ∈ item.atoms, SpelledIn text atom)
    (h : Tuple cs items) : ∀ item ∈ items, ∀ atom ∈ item.atoms, SpelledIn cs atom := by
  cases h with
  | empty hspacing => exact fun _ hmem => nomatch hmem
  | plain hitems =>
    intro item hitem atom hatom
    exact (hitems.spelledIn hspelled item hitem atom hatom).mono ⟨['('], [')'], by simp⟩
  | @trailing cs after _ hitems hafter =>
    intro item hitem atom hatom
    exact (hitems.spelledIn hspelled item hitem atom hatom).mono
      ⟨['('], ',' :: after ++ [')'], by simp⟩

/-- The atoms of a type are spelled in every text that is derivable as the type. -/
theorem Expr.spelledIn {cs : List Char} {e : TypeExpr} (h : Expr cs e) :
    ∀ atom ∈ e.atoms, SpelledIn cs atom := by
  induction e using TypeExpr.ind generalizing cs with
  | leaf name =>
    cases h with
    | atom hbefore hatom hafter =>
      exact List.forall_mem_singleton.mpr ⟨_, List.infix_append .., hatom⟩
  | literal text =>
    cases h with
    | atom hbefore hatom hafter =>
      exact List.forall_mem_singleton.mpr ⟨_, List.infix_append .., hatom⟩
  | tuple items ih =>
    rw [TypeExpr.forall_mem_atoms_tuple]
    cases h with
    | atom hbefore hatom hafter => cases hatom
    | tuple hbefore htuple hafter =>
      intro item hitem atom hatom
      exact (htuple.spelledIn ih item hitem atom hatom).mono (List.infix_append ..)

/-- A literal that was read is the canonical text of a number. -/
theorem SpelledIn.literal {cs : List Char} {text : String} (h : SpelledIn cs (.literal text)) :
    ∃ body value, SpellsNumber body value ∧ text = value.compact := by
  obtain ⟨body, -, hatom⟩ := h
  cases hatom with
  | number hbare hnumber => exact ⟨body, _, hnumber, rfl⟩

/-- A name that stands bare in a text is legible: it is shown bare again, or quoted if it is made of
digits. -/
theorem legible_of_bare {cs : List Char} (hbare : Bare cs)
    (hnumber : ∀ value, ¬ SpellsNumber cs value) : Legible (.leaf (String.ofList cs)) := by
  cases hquotes : needsQuotes cs with
  | false =>
    refine .bare ?_ ?_
    · rwa [String.toList_ofList]
    · rwa [String.toList_ofList]
  | true =>
    have hdigits : ∀ c ∈ cs, Text.isDigit c = true := by
      have hany : cs.any (fun c => !TypeExpr.isBare c) = false := by
        rw [List.any_eq_false]
        intro c hc
        simp [((bare_iff cs).mp hbare).2 c hc]
      rw [needsQuotes, hany, Bool.or_false, List.all_eq_true] at hquotes
      exact hquotes
    refine .quoted ?_ ?_
    · rwa [String.toList_ofList]
    · rw [verbatim_iff, String.toList_ofList]
      exact Text.flatMap_escapeChar_of_digits hdigits

/-- A name from a text without quotes is legible. -/
theorem SpelledIn.legible_name {cs : List Char} {name : String} (h : SpelledIn cs (.leaf name))
    (hdouble : '"' ∉ cs) (hsingle : '\'' ∉ cs) : Legible (.leaf name) := by
  obtain ⟨body, hbody, hatom⟩ := h
  cases hatom with
  | @quoted mark inner hmark hinner =>
    have hmem : mark ∈ cs := hbody.subset (List.mem_cons_self ..)
    rcases hmark with rfl | rfl
    · exact absurd hmem hdouble
    · exact absurd hmem hsingle
  | name hbare hnumber => exact legible_of_bare hbare hnumber

/-- The canonical text of an integer that was read is read back. -/
theorem SpellsNumber.parse?_compact {cs : List Char} {n : Int} (h : SpellsNumber cs (.integer n)) :
    Json.parse? (Json.integer n).compact = some (.integer n) := by
  have hparse : Json.parse? (String.ofList cs) = some (.integer n) := by
    rw [Json.parse?, String.toList_ofList]
    exact h.1
  exact (Json.plain_of_parse? hparse trivial).parse?_compact (Nat.le_refl _)

/-- An integer that was read is legible. -/
theorem legible_of_integer {cs : List Char} {n : Int} (h : SpellsNumber cs (.integer n)) :
    Legible (.literal (Json.integer n).compact) := .number ⟨h.parse?_compact, Or.inl ⟨n, rfl⟩⟩ rfl

end Notation

namespace TypeExpr

open Notation (Legible)

/-- What is read completely leaves the reader outside quotes. -/
theorem Reading.outside_of_complete? {r : Reading} {e : TypeExpr} (h : r.complete? = some e) :
    r.Outside := by
  intro mark read hphase
  obtain ⟨tuples, phase⟩ := r
  obtain rfl : phase = .quoted mark read := hphase
  cases tuples <;> cases h

/-- The literals of what was read are the canonical texts of numbers. -/
theorem literal_of_parse {text : String} {e : TypeExpr} (h : parse text = .ok e) {literal : String}
    (hmem : .literal literal ∈ e.atoms) :
    ∃ body value, Notation.SpellsNumber body value ∧ literal = value.compact := by
  rw [parse_eq_ok_iff, ofChars?_eq_some_iff] at h
  exact (h.spelledIn _ hmem).literal

/-- The literals of what was read are bare runs. -/
theorem bare_of_parse {text : String} {e : TypeExpr} (h : parse text = .ok e) :
    ∀ literal, .literal literal ∈ e.atoms → Notation.Bare literal.toList := by
  intro literal hmem
  obtain ⟨body, value, hnumber, rfl⟩ := literal_of_parse h hmem
  exact hnumber.bare_compact

section Bare

variable {e : TypeExpr} (hbare : ∀ text, .literal text ∈ e.atoms → Notation.Bare text.toList)
include hbare

/-- Where literals are bare runs, reading the notation of a type is deriving it. -/
theorem parse_render_iff_expr (found : TypeExpr) :
    parse e.render = .ok found ↔ Notation.Expr (renderChars e) found := by
  refine parse_render_eq_ok_iff (fun literal heq => hbare literal ?_) found
  rw [heq]
  exact List.mem_singleton_self _

/-- Where literals are bare runs, the notation of a type is accepted only if no name has a double
quote. -/
theorem quote_not_mem_of_parse_render {found : TypeExpr} (h : parse e.render = .ok found) :
    ∀ name, .leaf name ∈ e.atoms → '"' ∉ name.toList := by
  rw [parse_render_iff_expr hbare, ← ofChars?_eq_some_iff] at h
  obtain ⟨r, hrun, hcomplete⟩ := Option.bind_eq_some_iff.mp h
  have hstart : Reading.start.Reached := ⟨[], Reading.taken_start⟩
  exact (Reading.clear_renderChars hbare _ _ hstart hrun (Reading.outside_of_complete? hcomplete)).2

/-- Where literals are bare runs and no name has a double quote, the notation of a type is read
back. -/
theorem parse_render_eq_readBack (hquotes : ∀ name, .leaf name ∈ e.atoms → '"' ∉ name.toList) :
    parse e.render = .ok e.readBack := by
  rw [parse_render_iff_expr hbare]
  refine Notation.expr_readBack fun atom hatom => ?_
  rcases leaf_or_literal_of_mem_atoms hatom with ⟨name, rfl⟩ | ⟨literal, rfl⟩
  · exact .name (hquotes name hatom)
  · exact .literal (hbare literal hatom)

end Bare

/-- The atoms of what was read are legible if the names and the binary64 numbers are. -/
theorem legible_of_parse {text : String} {e : TypeExpr} (h : parse text = .ok e)
    (hnames : ∀ name, .leaf name ∈ e.atoms → Legible (.leaf name))
    (hdoubles : ∀ x, .literal (Json.double x).compact ∈ e.atoms →
      Legible (.literal (Json.double x).compact)) : ∀ atom ∈ e.atoms, Legible atom := by
  intro atom hatom
  rcases leaf_or_literal_of_mem_atoms hatom with ⟨name, rfl⟩ | ⟨literal, rfl⟩
  · exact hnames name hatom
  · obtain ⟨body, value, hnumber, rfl⟩ := literal_of_parse h hatom
    obtain ⟨n, rfl⟩ | ⟨x, rfl⟩ := hnumber.2
    · exact Notation.legible_of_integer hnumber
    · exact hdoubles x hatom

/-- The names that were read from a text without quotes are legible. -/
theorem legible_name_of_parse {text : String} {e : TypeExpr} (h : parse text = .ok e)
    (hdouble : '"' ∉ text.toList) (hsingle : '\'' ∉ text.toList) :
    ∀ name, .leaf name ∈ e.atoms → Legible (.leaf name) := by
  rw [parse_eq_ok_iff, ofChars?_eq_some_iff] at h
  intro name hname
  have hpart : Text.trimChars text.toList <:+: text.toList := by
    obtain ⟨before, after, heq, -, -⟩ := (Text.stripped_trimChars text.toList).blanks_around
    exact ⟨before, after, heq.symm⟩
  exact ((h.spelledIn _ hname).mono hpart).legible_name hdouble hsingle

/-- What was read is shown as a text that is accepted exactly if no name holds a double quote. This
text is read as the same type exactly if the names and the binary64 numbers are legible, which names
from a text without quotes always are. -/
theorem parse_render_of_parse {text : String} {e : TypeExpr} (h : parse text = .ok e) :
    ((∃ found, parse e.render = .ok found) ↔ ∀ name, .leaf name ∈ e.atoms → '"' ∉ name.toList) ∧
      (∀ found, parse e.render = .ok found → found = e.readBack) ∧
      (parse e.render = .ok e ↔ (∀ name, .leaf name ∈ e.atoms → Legible (.leaf name)) ∧
        ∀ x, .literal (Json.double x).compact ∈ e.atoms →
          Legible (.literal (Json.double x).compact)) ∧
      ('"' ∉ text.toList → '\'' ∉ text.toList →
        ∀ name, .leaf name ∈ e.atoms → Legible (.leaf name)) := by
  have hbare := bare_of_parse h
  refine ⟨⟨?_, fun hquotes => ⟨_, parse_render_eq_readBack hbare hquotes⟩⟩,
    ?_, ?_, legible_name_of_parse h⟩
  · rintro ⟨found, hfound⟩
    exact quote_not_mem_of_parse_render hbare hfound
  · intro found hfound
    have hquotes := quote_not_mem_of_parse_render hbare hfound
    exact Except.ok.inj (hfound.symm.trans (parse_render_eq_readBack hbare hquotes))
  · rw [parse_render_iff_expr hbare, Notation.expr_renderChars_iff]
    constructor
    · exact fun hall => ⟨fun name hname => hall _ hname, fun x hx => hall _ hx⟩
    · exact fun ⟨hnames, hdoubles⟩ => legible_of_parse h hnames hdoubles

/-- A quoted number, and a fraction whose nearest binary64 number is missed when its shortest text
is read. -/
theorem parse_render_of_parse_number :
    parse "('3.5', 98.177921181141330)" = .ok (.tuple [.leaf "3.5", .literal "98.17792118114133"]) ∧
      (∃ found, parse (tuple [.leaf "3.5", .literal "98.17792118114133"]).render = .ok found) ∧
      ∀ found, parse (tuple [.leaf "3.5", .literal "98.17792118114133"]).render = .ok found →
        found = .tuple [.literal "3.5", .literal "98.17792118114131"] := by
  have hparse : parse "('3.5', 98.177921181141330)" =
      .ok (.tuple [.leaf "3.5", .literal "98.17792118114133"]) := by decide +kernel
  have hreadBack : (tuple [.leaf "3.5", .literal "98.17792118114133"]).readBack =
      .tuple [.literal "3.5", .literal "98.17792118114131"] := by decide +kernel
  obtain ⟨haccepted, hfound, -⟩ := parse_render_of_parse hparse
  rw [hreadBack] at hfound
  refine ⟨hparse, haccepted.mpr fun name hname => ?_, hfound⟩
  simp only [atoms, atomsOf, List.append_nil, List.singleton_append, List.mem_cons, leaf.injEq,
    reduceCtorEq, List.not_mem_nil, or_false] at hname
  rw [hname]
  decide

/-- A quoted number is a name, and is shown as the number. -/
theorem not_parse_render_of_parse :
    ¬ ∀ (text : String) (e : TypeExpr), parse text = .ok e → parse e.render = .ok e := by
  intro h
  have hparse : parse "'3.5'" = .ok (.leaf "3.5") := by decide +kernel
  have hshown : parse (leaf "3.5").render = .ok (.literal "3.5") := by decide +kernel
  have hsame := hshown.symm.trans (h _ _ hparse)
  cases hsame

end TypeExpr

end TypeSieve
