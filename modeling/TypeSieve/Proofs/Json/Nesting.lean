import TypeSieve.Proofs.Json.Numbers
import TypeSieve.Proofs.Json.Printing

/-!
# Brackets in JSON texts

A reader that counts open brackets and passes over what stands between quotes. Over the compact text
of a value it comes back to the count that it had, and has never fewer on the way. So the text of an
array or an object ends where its brackets are closed for the first time, and no such text is the
beginning of another.
-/

namespace TypeSieve.Json

/-- Outside literals, inside one, or behind a backslash there. -/
inductive Place where
  | outside
  | literal
  | escaped
  deriving DecidableEq

/-- The number of open brackets and the place that a reader has come to. -/
structure Nesting where
  depth : Nat
  place : Place

namespace Nesting

/-- Read one character. -/
def step (n : Nesting) (c : Char) : Nesting :=
  match n.place with
  | .escaped => ⟨n.depth, .literal⟩
  | .literal =>
    if c = '\\' then ⟨n.depth, .escaped⟩
    else if c = '"' then ⟨n.depth, .outside⟩
    else n
  | .outside =>
    if c = '"' then ⟨n.depth, .literal⟩
    else if c = '[' ∨ c = '\x7b' then ⟨n.depth + 1, .outside⟩
    else if c = ']' ∨ c = '\x7d' then ⟨n.depth - 1, .outside⟩
    else n

/-- Over a text, a reader comes back to its place and its count, and has never fewer brackets open
on the way. -/
structure Returns (place : Place) (cs : List Char) : Prop where
  back : ∀ depth, cs.foldl step ⟨depth, place⟩ = ⟨depth, place⟩
  above : ∀ depth front, front <+: cs → depth ≤ (front.foldl step ⟨depth, place⟩).depth

/-- A beginning of a text between two characters is empty, ends in the text or is all of it. -/
theorem prefix_enclosed {front cs : List Char} {first last : Char}
    (h : front <+: first :: cs ++ [last]) :
    front = [] ∨ (∃ inner, inner <+: cs ∧ front = first :: inner) ∨
      front = first :: cs ++ [last] := by
  cases front with
  | nil => exact .inl rfl
  | cons c inner =>
    rw [List.cons_append, List.cons_prefix_cons] at h
    obtain ⟨rfl, hinner⟩ := h
    rcases List.prefix_concat_iff.mp hinner with rfl | hinner
    · exact .inr (.inr rfl)
    · exact .inr (.inl ⟨inner, hinner, rfl⟩)

namespace Returns

variable {place : Place} {a b cs : List Char}

/-- Nothing changes over the empty text. -/
theorem nil : Returns place [] := by
  refine ⟨fun _ => rfl, fun depth front hfront => ?_⟩
  rw [List.prefix_nil.mp hfront]
  exact le_rfl

/-- A reader returns over two texts if it does over each. -/
theorem append (ha : Returns place a) (hb : Returns place b) : Returns place (a ++ b) := by
  constructor
  · intro depth
    rw [List.foldl_append, ha.back, hb.back]
  · intro depth front hfront
    obtain ⟨rest, hrest⟩ := hfront
    rcases List.append_eq_append_iff.mp hrest with ⟨more, rfl, -⟩ | ⟨more, rfl, rfl⟩
    · exact ha.above depth front (List.prefix_append front more)
    · rw [List.foldl_append, ha.back]
      exact hb.above depth more (List.prefix_append more rest)

/-- A character that leaves a reader where it is. -/
theorem single {c : Char} (h : ∀ depth, step ⟨depth, place⟩ c = ⟨depth, place⟩) :
    Returns place [c] := by
  refine ⟨h, fun depth front hfront => ?_⟩
  rcases List.prefix_cons_iff.mp hfront with rfl | ⟨rest, rfl, hrest⟩
  · exact le_rfl
  · rw [List.prefix_nil.mp hrest]
    exact (congrArg Nesting.depth (h depth)).ge

/-- Outside literals, a character that is neither a quote nor a bracket leaves a reader where it
is. -/
theorem plain {c : Char} (h : c ∉ ['"', '[', '\x7b', ']', '\x7d']) : Returns .outside [c] := by
  refine single fun depth => ?_
  simp only [List.mem_cons, List.not_mem_nil, or_false, not_or] at h
  simp [step, h]

/-- Outside literals, characters that are neither quotes nor brackets leave a reader where it is. -/
theorem of_plain (h : ∀ c ∈ cs, c ∉ ['"', '[', '\x7b', ']', '\x7d']) : Returns .outside cs := by
  induction cs with
  | nil => exact nil
  | cons c rest ih =>
    obtain ⟨hc, hrest⟩ := List.forall_mem_cons.mp h
    exact (plain hc).append (ih hrest)

/-- Inside a literal, a character that is neither a quote nor a backslash leaves a reader where it
is. -/
theorem literal_plain {c : Char} (hquote : c ≠ '"') (hslash : c ≠ '\\') : Returns .literal [c] :=
  single fun depth => by simp [step, hquote, hslash]

/-- Inside a literal, a reader returns behind a backslash and any other character. -/
theorem literal_escape (c : Char) : Returns .literal ['\\', c] := by
  refine ⟨fun _ => rfl, fun depth front hfront => ?_⟩
  rcases List.prefix_cons_iff.mp hfront with rfl | ⟨rest, rfl, hrest⟩
  · exact le_rfl
  rcases List.prefix_cons_iff.mp hrest with rfl | ⟨more, rfl, hmore⟩
  · exact le_rfl
  · rw [List.prefix_nil.mp hmore]
    exact le_rfl

/-- Inside a literal, a reader returns over an escaped character. -/
theorem escapeChar (c : Char) : Returns .literal (Json.escapeChar c) := by
  rcases escapeChar_cases c with ⟨e, hform, -⟩ | ⟨hcontrol, -, hform⟩ | ⟨hform, hquote, hslash, -⟩
  · rw [hform]
    exact literal_escape e
  · obtain ⟨-, hquote, hslash, hquote', hslash'⟩ := hexDigits_control c.toNat hcontrol
    rw [hform]
    exact (literal_escape 'u').append <| (literal_plain (by decide) (by decide)).append <|
      (literal_plain (by decide) (by decide)).append <|
        (literal_plain hquote hslash).append (literal_plain hquote' hslash')
  · rw [hform]
    exact literal_plain hquote hslash

/-- Inside a literal, a reader returns over an escaped text. -/
theorem flatMap_escapeChar (cs : List Char) : Returns .literal (cs.flatMap Json.escapeChar) := by
  induction cs with
  | nil => exact nil
  | cons c rest ih =>
    rw [List.flatMap_cons]
    exact (escapeChar c).append ih

/-- A reader returns over a text between two characters if one leads it on and the other one
back. -/
theorem between (k : Nat) {inside : Place} {first last : Char}
    (hfirst : ∀ depth, step ⟨depth, .outside⟩ first = ⟨depth + k, inside⟩)
    (hlast : ∀ depth, step ⟨depth + k, inside⟩ last = ⟨depth, .outside⟩) (h : Returns inside cs) :
    Returns .outside (first :: cs ++ [last]) := by
  have hback : ∀ depth, (first :: cs ++ [last]).foldl step ⟨depth, .outside⟩ =
      ⟨depth, .outside⟩ := by
    intro depth
    rw [List.cons_append, List.foldl_cons, hfirst, List.foldl_append, h.back, List.foldl_cons,
      hlast, List.foldl_nil]
  refine ⟨hback, fun depth front hfront => ?_⟩
  rcases prefix_enclosed hfront with rfl | ⟨inner, hinner, rfl⟩ | rfl
  · exact le_rfl
  · rw [List.foldl_cons, hfirst]
    exact (Nat.le_add_right depth k).trans (h.above (depth + k) inner hinner)
  · exact (congrArg Nesting.depth (hback depth)).ge

/-- A reader returns over a literal. -/
theorem literalChars (text : String) : Returns .outside (literalChars text) :=
  between 0 (fun _ => rfl) (fun _ => rfl) (flatMap_escapeChar text.toList)

section Enclosed

variable {first last : Char} (hfirst : first = '[' ∨ first = '\x7b')
  (hlast : last = ']' ∨ last = '\x7d')
include hfirst

/-- Behind an opening bracket one more is open. -/
theorem step_open (depth : Nat) : step ⟨depth, .outside⟩ first = ⟨depth + 1, .outside⟩ := by
  rcases hfirst with rfl | rfl <;> rfl

/-- Inside brackets, one more bracket is open. -/
theorem above_enclosed (h : Returns .outside cs) (depth : Nat) {inner : List Char}
    (hinner : inner <+: cs) :
    depth + 1 ≤ ((first :: inner).foldl step ⟨depth, .outside⟩).depth := by
  rw [List.foldl_cons, step_open hfirst]
  exact h.above (depth + 1) inner hinner

include hlast

/-- A reader returns over a text in brackets. -/
theorem enclosed (h : Returns .outside cs) : Returns .outside (first :: cs ++ [last]) := by
  have hclose : ∀ depth, step ⟨depth + 1, .outside⟩ last = ⟨depth, .outside⟩ := by
    rcases hlast with rfl | rfl <;> exact fun _ => rfl
  exact between 1 (step_open hfirst) hclose h

end Enclosed

/-- A reader returns over texts with commas between them if it does over each. -/
theorem intercalate {texts : List (List Char)} (h : ∀ text ∈ texts, Returns .outside text) :
    Returns .outside ([','].intercalate texts) := by
  induction texts with
  | nil => exact nil
  | cons text rest ih =>
    obtain ⟨htext, hrest⟩ := List.forall_mem_cons.mp h
    cases rest with
    | nil => simpa using htext
    | cons next more =>
      rw [List.intercalate_cons_of_ne_nil (List.cons_ne_nil next more), List.append_assoc]
      exact htext.append ((plain (by decide)).append (ih hrest))

/-- Characters of words and numerals are neither quotes nor brackets. -/
theorem of_runChars (h : ∀ c ∈ cs, isRunChar c = true) : Returns .outside cs := by
  refine of_plain fun c hc hmem => ?_
  have hrun := h c hc
  simp only [List.mem_cons, List.not_mem_nil, or_false] at hmem
  rcases hmem with rfl | rfl | rfl | rfl | rfl <;> revert hrun <;> decide

end Returns

end Nesting

open Nesting (Returns)

/-- The value is an array or an object. -/
def IsComposite : Json → Prop
  | .array _ | .object _ => True
  | _ => False

/-- The text of a number, a word or null is a run. -/
theorem runChars_compactChars {value : Json} (hstring : ∀ text, value ≠ .string text)
    (hcomposite : ¬ value.IsComposite) :
    value.compactChars ≠ [] ∧ ∀ c ∈ value.compactChars, isRunChar c = true := by
  have hnumber : ∀ {cs : List Char}, NumberText cs → cs ≠ [] ∧ ∀ c ∈ cs, isRunChar c = true :=
    fun h => ⟨h.1, fun c hc => isRunChar_of_numberChar (h.2 c hc)⟩
  cases value with
  | null => exact ⟨List.cons_ne_nil _ _, List.all_eq_true.mp rfl⟩
  | bool value => cases value <;> exact ⟨List.cons_ne_nil _ _, List.all_eq_true.mp rfl⟩
  | integer n => exact hnumber (numberText_integerChars n)
  | double x => exact hnumber (numberText_doubleChars x)
  | string text => exact absurd rfl (hstring text)
  | array items => exact absurd trivial hcomposite
  | object members => exact absurd trivial hcomposite

/-- The text of a value other than a string begins with a bracket, as one of the three words or as a
number does. -/
theorem head?_compact_ne {value : Json} (hstring : ∀ text, value ≠ .string text) {c : Char}
    (hword : c ∉ ['[', '\x7b', 'n', 't', 'f']) (hnumber : ¬ NumberChar c) :
    value.compact.toList.head? ≠ some c := by
  rw [compact, String.toList_ofList]
  have hnumbers : ∀ {cs : List Char}, NumberText cs → cs.head? ≠ some c := fun h hc =>
    hnumber (h.2 c (List.mem_of_head? hc))
  have hwords : ∀ {d : Char} {cs : List Char}, d ∈ ['[', '\x7b', 'n', 't', 'f'] →
      (d :: cs).head? ≠ some c :=
    fun hd hc => hword (Option.some.inj hc ▸ hd)
  cases value with
  | null => exact hwords (by decide)
  | bool value => cases value <;> exact hwords (by decide)
  | integer n => exact hnumbers (numberText_integerChars n)
  | double x => exact hnumbers (numberText_doubleChars x)
  | string text => exact absurd rfl (hstring text)
  | array items => exact hwords (by decide)
  | object members => exact hwords (by decide)

/-- A reader returns over items with commas between them if it does over each. -/
theorem returns_compactItems {items : List Json}
    (h : ∀ item ∈ items, Returns .outside item.compactChars) :
    Returns .outside (compactItems items) := by
  rw [compactItems_eq_intercalate]
  refine .intercalate fun text htext => ?_
  obtain ⟨item, hitem, rfl⟩ := List.mem_map.mp htext
  exact h item hitem

/-- A reader returns over members with commas between them if it does over each value. -/
theorem returns_compactMembers {members : List (String × Json)}
    (h : ∀ member ∈ members, Returns .outside member.2.compactChars) :
    Returns .outside (compactMembers members) := by
  rw [compactMembers_eq_intercalate]
  refine .intercalate fun text htext => ?_
  obtain ⟨member, hmember, rfl⟩ := List.mem_map.mp htext
  exact (Returns.literalChars member.1).append
    ((Returns.plain (by decide)).append (h member hmember))

/-- A reader returns over the compact text of a value. -/
theorem returns_compactChars (value : Json) : Returns .outside value.compactChars := by
  induction value using Json.ind with
  | null | bool value | integer n | double x =>
    exact .of_runChars (runChars_compactChars (by simp) (by simp [IsComposite])).2
  | string text => exact .literalChars text
  | array items ih => exact .enclosed (.inl rfl) (.inl rfl) (returns_compactItems ih)
  | object members ih => exact .enclosed (.inr rfl) (.inr rfl) (returns_compactMembers ih)

/-- The text of an array or an object stands in brackets, and a reader returns over what they
enclose. -/
theorem IsComposite.exists_enclosed {value : Json} (h : value.IsComposite) :
    ∃ first inner last, value.compactChars = first :: inner ++ [last] ∧
      (first = '[' ∨ first = '\x7b') ∧ Returns .outside inner := by
  cases value with
  | array items =>
    exact ⟨_, _, _, rfl, .inl rfl, returns_compactItems fun item _ => returns_compactChars item⟩
  | object members =>
    exact ⟨_, _, _, rfl, .inr rfl,
      returns_compactMembers fun member _ => returns_compactChars member.2⟩
  | null | bool _ | integer _ | double _ | string _ => exact h.elim

/-- No text of an array or an object is the beginning of another: at its end all brackets are
closed, and inside the other one is open. -/
theorem IsComposite.eq_of_prefix {a b : Json} (ha : a.IsComposite) (hb : b.IsComposite)
    (h : a.compactChars <+: b.compactChars) : a.compactChars = b.compactChars := by
  obtain ⟨first, inner, last, hb, hfirst, hinner⟩ := hb.exists_enclosed
  rw [hb] at h ⊢
  rcases Nesting.prefix_enclosed h with hnil | ⟨front, hfront, heq⟩ | heq
  · obtain ⟨_, _, _, ha, -, -⟩ := ha.exists_enclosed
    simp [ha] at hnil
  · have hopen := Returns.above_enclosed hfirst hinner 0 hfront
    rw [← heq, (returns_compactChars a).back] at hopen
    exact absurd hopen (by decide)
  · exact heq

/-- Texts of arrays and objects in the same place are the same. -/
theorem IsComposite.append_inj {a b : Json} (ha : a.IsComposite) (hb : b.IsComposite)
    {x y : List Char} (h : a.compactChars ++ x = b.compactChars ++ y) :
    a.compactChars = b.compactChars ∧ x = y := by
  have hsame : a.compactChars = b.compactChars := by
    rcases List.append_eq_append_iff.mp h with ⟨more, hmore, -⟩ | ⟨more, hmore, -⟩
    · exact ha.eq_of_prefix hb ⟨more, hmore.symm⟩
    · exact (hb.eq_of_prefix ha ⟨more, hmore.symm⟩).symm
  rw [hsame] at h
  exact ⟨hsame, List.append_cancel_left h⟩

/-- No run begins as the text of an array or an object does. -/
theorem IsComposite.append_ne_run {value : Json} (h : value.IsComposite) {run : List Char}
    (hne : run ≠ []) (hrun : ∀ c ∈ run, isRunChar c = true) (x y : List Char) :
    value.compactChars ++ x ≠ run ++ y := by
  obtain ⟨first, inner, last, hvalue, hfirst, -⟩ := h.exists_enclosed
  obtain ⟨c, rest, rfl⟩ := List.exists_cons_of_ne_nil hne
  intro heq
  rw [hvalue] at heq
  obtain ⟨rfl, -⟩ := List.cons.inj heq
  have hc := hrun first (List.mem_cons_self ..)
  rcases hfirst with rfl | rfl <;> revert hc <;> decide

end TypeSieve.Json
