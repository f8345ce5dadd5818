import TypeSieve.Proofs.Filter.Account
import TypeSieve.Proofs.Model.SavedMethods
import TypeSieve.Proofs.TypeExpr.Apart

/-!
# Signatures that are shown apart

A shown signature joins names, types and defaults with separators, and a default that is a string
stands there without quotes. So different signatures may be shown alike. Those of loaded methods are
shown apart where no name holds a separator, no name in a type reads like a literal, and no default
reads like another or like further parameters. A removal in a report then tells which method was
removed.
-/

namespace TypeSieve

variable {a b x y : List Char}

/-- Where two texts with a separator behind each agree, they are the same with the same separator,
or one holds the separator of the other. -/
theorem separators_agree {c d : Char} (hc : c ≠ ' ') (hd : d ≠ ' ')
    (h : a ++ c :: ' ' :: x = b ++ d :: ' ' :: y) :
    (a = b ∧ c = d ∧ x = y) ∨ [c, ' '] <:+: b ∨ [d, ' '] <:+: a := by
  rcases List.append_eq_append_iff.mp h with ⟨more, rfl, hmore⟩ | ⟨more, rfl, hmore⟩
  · rcases more with _ | ⟨first, _ | ⟨second, rest⟩⟩
    · obtain ⟨hcd, hrest⟩ := List.cons.inj hmore
      exact .inl ⟨(List.append_nil a).symm, hcd, (List.cons.inj hrest).2⟩
    · exact absurd (List.cons.inj (List.cons.inj hmore).2).1.symm hd
    · obtain ⟨rfl, hrest⟩ := List.cons.inj hmore
      obtain ⟨rfl, -⟩ := List.cons.inj hrest
      exact .inr (.inl ⟨a, rest, by simp⟩)
  · rcases more with _ | ⟨first, _ | ⟨second, rest⟩⟩
    · obtain ⟨hcd, hrest⟩ := List.cons.inj hmore
      exact .inl ⟨List.append_nil b, hcd.symm, (List.cons.inj hrest).2.symm⟩
    · exact absurd (List.cons.inj (List.cons.inj hmore).2).1.symm hc
    · obtain ⟨rfl, hrest⟩ := List.cons.inj hmore
      obtain ⟨rfl, -⟩ := List.cons.inj hrest
      exact .inr (.inr ⟨b, rest, by simp⟩)

namespace Param

open TypeExpr (needsQuotes LiteralText Distinct Ends renderChars literalValue)

/-- A default value that is shown so that it cannot be taken for another value or for further
parameters. -/
inductive ShownPlainly : Json → Prop
  /-- A string, which is shown without quotes. No other value has this text, or one that goes on
  behind it with a comma and a space, and behind a comma and a space in it stand no colon and
  space. -/
  | text {text : String}
    (hvalue : ∀ value : Json, (∀ s, value ≠ .string s) →
      value.compact ≠ text ∧ ¬ text.toList ++ [',', ' '] <+: value.compact.toList)
    (hparams : ∀ before after, text.toList = before ++ ',' :: ' ' :: after →
      ¬ [':', ' '] <:+: after) :
    ShownPlainly (.string text)
  /-- Any other value that is shown as its compact text. -/
  | other {value : Json} (hstring : ∀ s, value ≠ .string s)
    (hshown : renderDefault (literalValue value.compact) = value.compact) : ShownPlainly value

/-- A plain value other than a string is shown plainly. -/
theorem shownPlainly_of_plain {value : Json} {depth : Nat} (hplain : value.Plain depth)
    (hle : depth ≤ Json.depthLimit) (hstring : ∀ s, value ≠ .string s) : ShownPlainly value := by
  refine .other hstring ?_
  rw [TypeExpr.literalValue_compact hplain hle]
  cases value with
  | string text => exact absurd rfl (hstring text)
  | null | bool _ | integer _ | double _ | array _ | object _ => rfl

/-- A string without a comma and a space that begins as no other value does is shown plainly. -/
theorem shownPlainly_of_head {text : String} {c : Char} (hhead : text.toList.head? = some c)
    (hword : c ∉ ['[', '\x7b', 'n', 't', 'f']) (hnumber : ¬ Json.NumberChar c)
    (hcomma : ¬ [',', ' '] <:+: text.toList) : ShownPlainly (.string text) := by
  refine .text (fun value hstring => ?_) fun before after hsplit => ?_
  · have hne := Json.head?_compact_ne hstring hword hnumber
    constructor
    · rintro rfl
      exact hne hhead
    · rintro ⟨rest, hrest⟩
      rw [← hrest, List.append_assoc, List.head?_append, hhead] at hne
      exact hne rfl
  · exact absurd ⟨before, after, by simp [hsplit]⟩ hcomma

/-- A parameter that is shown so that its name, its type and its default can be told. -/
structure Unmistakable (p : Param) : Prop where
  no_parenthesis : '(' ∉ p.name.toList
  no_colon : ¬ [':', ' '] <:+: p.name.toList
  no_comma : ¬ [',', ' '] <:+: p.name.toList
  bare_names : ∀ name, .leaf name ∈ p.type.atoms → needsQuotes name.toList = false →
    ¬ LiteralText name
  default : ∀ text ∈ p.defaultText, ∃ value, ShownPlainly value ∧ value.compact = text

/-- The default as it is shown, behind an equals sign. -/
def defaultChars (p : Param) : List Char :=
  match p.default? with
  | some value => ' ' :: '=' :: ' ' :: (renderDefault value).toList
  | none => []

/-- A parameter is shown as its name, its type and its default. -/
theorem toList_render (p : Param) :
    p.render.toList = p.name.toList ++ ':' :: ' ' :: (renderChars p.type ++ p.defaultChars) := by
  rw [render, defaultChars, TypeExpr.render]
  cases p.default? <;> simp

/-- Nothing, or a comma, a space and a parameter up to its type, may stand behind a parameter. -/
def Behind (cs : List Char) : Prop :=
  cs = [] ∨ ∃ name rest, cs = ',' :: ' ' :: (name ++ ':' :: ' ' :: rest) ∧ ¬ [',', ' '] <:+: name

/-- What stands behind a parameter begins with a comma and a space. -/
theorem Behind.of_cons {c : Char} (h : Behind (c :: x)) : c = ',' ∧ ∃ rest, x = ' ' :: rest := by
  obtain hnil | ⟨name, rest, heq, -⟩ := h
  · cases hnil
  · exact ⟨(List.cons.inj heq).1, _, (List.cons.inj heq).2⟩

/-- The first character behind a parameter is a comma. -/
theorem Behind.eq_comma (h : Behind x) {c : Char} (hc : c ∈ x.head?) : c = ',' := by
  cases x with
  | nil => cases hc
  | cons d rest =>
    obtain rfl := Option.some.inj hc
    exact h.of_cons.1

/-- What may stand behind a parameter may stand behind a type. -/
theorem Behind.ends (h : Behind x) : Ends x := by
  intro c hc
  rw [h.eq_comma hc]
  decide

/-- Where a single character could belong to a default or stand behind it, it does neither. -/
theorem Behind.not_cons {c : Char} (h : Behind (c :: x)) : ¬ Behind x := by
  obtain ⟨-, rest, rfl⟩ := h.of_cons
  exact fun hspace => absurd hspace.of_cons.1 (by decide)

/-- What a string default has more than another text is no part of what stands behind that. -/
theorem eq_nil_of_behind {text more rest : List Char}
    (hparams : ∀ before after, text ++ more = before ++ ',' :: ' ' :: after →
      ¬ [':', ' '] <:+: after)
    (hmore : Behind (more ++ rest)) (hrest : Behind rest) : more = [] := by
  rcases more with _ | ⟨first, _ | ⟨second, after⟩⟩
  · rfl
  · exact absurd hrest hmore.not_cons
  · obtain hnil | ⟨name, tail, htail, hname⟩ := hmore
    · cases hnil
    obtain ⟨rfl, hspace⟩ := List.cons.inj htail
    obtain ⟨rfl, hseam⟩ := List.cons.inj hspace
    have hafter := hparams text after rfl
    rcases hrest with rfl | ⟨other, tail', rfl, -⟩
    · exact absurd ⟨name, tail, by simpa using hseam.symm⟩ hafter
    · rcases separators_agree (by decide) (by decide) hseam with ⟨-, hcolon, -⟩ | hcomma | hcolon
      · exact absurd hcolon (by decide)
      · exact absurd hcomma hname
      · exact absurd hcolon hafter

/-- A string is shown without quotes. -/
theorem renderDefault_string (text : String) :
    renderDefault (literalValue (Json.string text).compact) = text := by
  have hplain : (Json.string text).Plain 0 := ⟨trivial, trivial⟩
  rw [TypeExpr.literalValue_compact hplain (Nat.zero_le _)]
  rfl

section Defaults

variable {s t : String} {v w : Json} (hx : Behind x) (hy : Behind y)
include hx hy

/-- Strings that are shown in the same place are the same. -/
theorem text_append_inj
    (hs : ∀ before after, s.toList = before ++ ',' :: ' ' :: after → ¬ [':', ' '] <:+: after)
    (ht : ∀ before after, t.toList = before ++ ',' :: ' ' :: after → ¬ [':', ' '] <:+: after)
    (h : s.toList ++ x = t.toList ++ y) : s = t ∧ x = y := by
  rcases List.append_eq_append_iff.mp h with ⟨more, hmore, rfl⟩ | ⟨more, hmore, rfl⟩
  · obtain rfl := eq_nil_of_behind (hmore ▸ ht) hx hy
    exact ⟨String.toList_inj.mp (by simpa using hmore.symm), rfl⟩
  · obtain rfl := eq_nil_of_behind (hmore ▸ hs) hy hx
    exact ⟨String.toList_inj.mp (by simpa using hmore), rfl⟩

/-- A string and the text of another value are not shown in the same place. -/
theorem text_append_ne (hvalue : w.compact ≠ s ∧ ¬ s.toList ++ [',', ' '] <+: w.compact.toList)
    (hs : ∀ before after, s.toList = before ++ ',' :: ' ' :: after → ¬ [':', ' '] <:+: after) :
    s.toList ++ x ≠ w.compact.toList ++ y := by
  obtain ⟨hne, hprefix⟩ := hvalue
  intro h
  rcases List.append_eq_append_iff.mp h with ⟨more, hmore, rfl⟩ | ⟨more, hmore, rfl⟩
  · rcases more with _ | ⟨first, _ | ⟨second, rest⟩⟩
    · exact hne (String.toList_inj.mp (by simpa using hmore))
    · exact hx.not_cons hy
    · obtain ⟨rfl, _, hspace⟩ := hx.of_cons
      obtain ⟨rfl, -⟩ := List.cons.inj hspace
      exact hprefix ⟨rest, by simp [hmore]⟩
  · obtain rfl := eq_nil_of_behind (hmore ▸ hs) hy hx
    exact hne (String.toList_inj.mp (by simpa using hmore.symm))

/-- Texts of values other than strings that are shown in the same place are the same. -/
theorem compact_append_inj (hv : ∀ text, v ≠ .string text) (hw : ∀ text, w ≠ .string text)
    (h : v.compact.toList ++ x = w.compact.toList ++ y) : v.compact = w.compact ∧ x = y := by
  rw [Json.compact, Json.compact, String.toList_ofList, String.toList_ofList] at h
  have hends : ∀ {z : List Char}, Behind z → ∀ c ∈ z.head?, ¬ Json.isRunChar c = true := by
    intro z hz c hc
    rw [hz.eq_comma hc]
    decide
  have hsame : v.compactChars = w.compactChars ∧ x = y := by
    by_cases hvc : v.IsComposite <;> by_cases hwc : w.IsComposite
    · exact hvc.append_inj hwc h
    · obtain ⟨hne, hrun⟩ := Json.runChars_compactChars hw hwc
      exact absurd h (hvc.append_ne_run hne hrun x y)
    · obtain ⟨hne, hrun⟩ := Json.runChars_compactChars hv hvc
      exact absurd h.symm (hwc.append_ne_run hne hrun y x)
    · obtain ⟨-, hvrun⟩ := Json.runChars_compactChars hv hvc
      obtain ⟨-, hwrun⟩ := Json.runChars_compactChars hw hwc
      exact Notation.append_inj_of_runs hvrun hwrun (hends hx) (hends hy) h
  exact ⟨congrArg String.ofList hsame.1, hsame.2⟩

/-- Default values that are shown plainly in the same place have the same text. -/
theorem renderDefault_append_inj (hv : ShownPlainly v) (hw : ShownPlainly w)
    (h : (renderDefault (literalValue v.compact)).toList ++ x =
      (renderDefault (literalValue w.compact)).toList ++ y) : v.compact = w.compact ∧ x = y := by
  cases hv with
  | text hvvalue hvparams =>
    rw [renderDefault_string] at h
    cases hw with
    | text hwvalue hwparams =>
      rw [renderDefault_string] at h
      obtain ⟨rfl, hrest⟩ := text_append_inj hx hy hvparams hwparams h
      exact ⟨rfl, hrest⟩
    | other hwstring hwshown =>
      rw [hwshown] at h
      exact absurd h (text_append_ne hx hy (hvvalue w hwstring) hvparams)
  | other hvstring hvshown =>
    rw [hvshown] at h
    cases hw with
    | text hwvalue hwparams =>
      rw [renderDefault_string] at h
      exact absurd h.symm (text_append_ne hy hx (hwvalue v hvstring) hwparams)
    | other hwstring hwshown =>
      rw [hwshown] at h
      exact compact_append_inj hx hy hvstring hwstring h

end Defaults

section Loaded

variable {p q : Param} {value other : Json}

/-- The atoms of a loaded parameter are distinct if its bare names are no texts of literals. -/
theorem Unmistakable.distinct (h : p.Unmistakable) (hload : ofJson value = .ok p) :
    ∀ atom ∈ p.type.atoms, Distinct atom := by
  obtain ⟨name, type, rfl, -, -⟩ := exists_fields_of_ofJson hload
  intro atom hatom
  rcases TypeExpr.leaf_or_literal_of_mem_atoms hatom with ⟨leaf, rfl⟩ | ⟨text, rfl⟩
  · cases hquotes : needsQuotes leaf.toList with
    | true => exact .quoted hquotes
    | false => exact .bare hquotes (h.bare_names leaf hatom hquotes)
  · exact .literal (TypeExpr.literalText_of_mem_atoms hatom)

/-- The default of an unmistakable parameter, if there is one, is the text of a value that is shown
plainly. -/
theorem Unmistakable.default_cases (h : p.Unmistakable) :
    (p.defaultText = none ∧ p.defaultChars = []) ∨
      ∃ v, p.defaultText = some v.compact ∧ ShownPlainly v ∧
      p.defaultChars = ' ' :: '=' :: ' ' :: (renderDefault (literalValue v.compact)).toList := by
  rw [defaultChars, default?]
  cases hdefault : p.defaultText with
  | none => exact .inl ⟨rfl, rfl⟩
  | some text =>
    obtain ⟨v, hv, rfl⟩ := h.default text hdefault
    exact .inr ⟨v, rfl, hv, rfl⟩

/-- The default of an unmistakable parameter does not read on like its type. -/
theorem Unmistakable.ends (h : p.Unmistakable) (hx : Behind x) :
    Ends (p.defaultChars ++ x) := by
  rcases h.default_cases with ⟨-, hnone⟩ | ⟨v, -, -, hsome⟩
  · rw [hnone]
    exact hx.ends
  · rw [hsome]
    intro c hc
    obtain rfl := Option.some.inj hc
    decide

/-- Unmistakable defaults that are shown in the same place are the same. -/
theorem Unmistakable.default_append_inj (hp : p.Unmistakable) (hq : q.Unmistakable) (hx : Behind x)
    (hy : Behind y) (h : p.defaultChars ++ x = q.defaultChars ++ y) :
    p.defaultText = q.defaultText ∧ x = y := by
  rcases hp.default_cases with ⟨hpnone, hpchars⟩ | ⟨v, hpsome, hv, hpchars⟩ <;>
    rcases hq.default_cases with ⟨hqnone, hqchars⟩ | ⟨w, hqsome, hw, hqchars⟩ <;>
      rw [hpchars, hqchars] at h
  · exact ⟨hpnone.trans hqnone.symm, h⟩
  · rw [List.nil_append, List.cons_append] at h
    exact absurd (h ▸ hx).of_cons.1 (by decide)
  · rw [List.nil_append, List.cons_append] at h
    exact absurd (h.symm ▸ hy).of_cons.1 (by decide)
  · simp only [List.cons_append, List.cons.injEq, true_and] at h
    obtain ⟨hcompact, hrest⟩ := renderDefault_append_inj hx hy hv hw h
    exact ⟨by rw [hpsome, hqsome, hcompact], hrest⟩

/-- Unmistakable parameters that are shown in the same place are the same. -/
theorem Unmistakable.append_inj (hp : p.Unmistakable) (hq : q.Unmistakable)
    (hpload : ofJson value = .ok p) (hqload : ofJson other = .ok q) (hx : Behind x) (hy : Behind y)
    (h : p.render.toList ++ x = q.render.toList ++ y) : p = q ∧ x = y := by
  simp only [toList_render, List.append_assoc, List.cons_append] at h
  rcases separators_agree (by decide) (by decide) h with ⟨hname, -, hrest⟩ | hcolon | hcolon
  · obtain ⟨htype, hdefault⟩ := TypeExpr.apart_of_distinct (hp.distinct hpload) (hq.distinct hqload)
      (hp.ends hx) (hq.ends hy) hrest
    obtain ⟨htext, hxy⟩ := hp.default_append_inj hq hx hy hdefault
    obtain ⟨pname, ptype, pdefault⟩ := p
    obtain ⟨qname, qtype, qdefault⟩ := q
    obtain rfl := String.toList_inj.mp hname
    obtain rfl : ptype = qtype := htype
    obtain rfl : pdefault = qdefault := htext
    exact ⟨rfl, hxy⟩
  · exact absurd hcolon hq.no_colon
  · exact absurd hcolon hp.no_colon

end Loaded

/-- Further parameters as they are shown, each behind a comma and a space. -/
def furtherChars : List Param → List Char
  | [] => []
  | p :: rest => ',' :: ' ' :: (p.render.toList ++ furtherChars rest)

/-- Parameters are shown with a comma and a space between them. -/
theorem toList_intercalate_render (p : Param) (rest : List Param) :
    (String.intercalate ", " ((p :: rest).map render)).toList =
      p.render.toList ++ furtherChars rest := by
  induction rest generalizing p with
  | nil => simp [furtherChars]
  | cons next rest ih =>
    rw [furtherChars, ← ih next]
    simp

/-- A list of parameters that were read and are unmistakable. -/
def Told (params : List Param) : Prop :=
  ∀ p ∈ params, p.Unmistakable ∧ ∃ value, ofJson value = .ok p

/-- Further parameters may stand behind a parameter. -/
theorem behind_furtherChars {params : List Param} (h : Told params) :
    Behind (furtherChars params) := by
  cases params with
  | nil => exact .inl rfl
  | cons p rest =>
    refine .inr ⟨p.name.toList, renderChars p.type ++ p.defaultChars ++ furtherChars rest, ?_,
      (h p (List.mem_cons_self ..)).1.no_comma⟩
    simp [furtherChars, toList_render]

/-- Further parameters that are shown alike are the same. -/
theorem furtherChars_inj {ps qs : List Param} (hps : Told ps) (hqs : Told qs)
    (h : furtherChars ps = furtherChars qs) : ps = qs := by
  induction ps generalizing qs with
  | nil =>
    cases qs with
    | nil => rfl
    | cons q rest => cases h
  | cons p rest ih =>
    cases qs with
    | nil => cases h
    | cons q more =>
      obtain ⟨⟨hp, _, hpload⟩, hrest⟩ := List.forall_mem_cons.mp hps
      obtain ⟨⟨hq, _, hqload⟩, hmore⟩ := List.forall_mem_cons.mp hqs
      simp only [furtherChars, List.cons.injEq, true_and] at h
      obtain ⟨rfl, htail⟩ :=
        hp.append_inj hq hpload hqload (behind_furtherChars hrest) (behind_furtherChars hmore) h
      rw [ih hrest hmore htail]

end Param

namespace Signature

open Param (Told furtherChars)

/-- A signature that is shown so that its name and its parameters can be told. -/
structure Unmistakable (s : Signature) : Prop where
  no_colon : ¬ [':', ' '] <:+: s.name.toList
  params : ∀ p ∈ s.params, p.Unmistakable

/-- The parameters as they are shown. -/
def paramsChars (params : List Param) : List Char :=
  (String.intercalate ", " (params.map Param.render)).toList

/-- A signature is shown as its name and its parameters between parentheses. -/
theorem toList_render (s : Signature) :
    s.render.toList = s.name.toList ++ '(' :: paramsChars s.params ++ [')'] := by
  simp [render, paramsChars]

/-- At least one parameter is shown as its parts before the further ones. -/
theorem paramsChars_cons (p : Param) (rest : List Param) :
    paramsChars (p :: rest) = p.name.toList ++ ':' :: ' ' ::
      (TypeExpr.renderChars p.type ++ p.defaultChars ++ furtherChars rest) := by
  rw [paramsChars, Param.toList_intercalate_render, Param.toList_render]
  simp

/-- Parameters that are shown alike are the same. -/
theorem paramsChars_inj {ps qs : List Param} (hps : Told ps) (hqs : Told qs)
    (h : paramsChars ps = paramsChars qs) : ps = qs := by
  have hne : ∀ p rest, paramsChars (p :: rest) ≠ [] := by
    intro p rest
    rw [paramsChars_cons]
    simp
  cases ps with
  | nil =>
    cases qs with
    | nil => rfl
    | cons q more => exact absurd h.symm (hne q more)
  | cons p rest =>
    cases qs with
    | nil => exact absurd h (hne p rest)
    | cons q more =>
      -- With a comma and a space in front, all parameters are further ones.
      rw [paramsChars, paramsChars, Param.toList_intercalate_render,
        Param.toList_intercalate_render] at h
      refine Param.furtherChars_inj hps hqs ?_
      rw [furtherChars, furtherChars, h]

/-- What parameters show before a parenthesis holds a colon and a space: no parenthesis stands in
the first name. -/
theorem colon_of_parenthesis {params : List Param} (h : Told params) {more rest : List Char}
    (heq : paramsChars params = more ++ '(' :: rest) : [':', ' '] <:+: more := by
  cases params with
  | nil => simp [paramsChars] at heq
  | cons p others =>
    have hname := (h p (List.mem_cons_self ..)).1.no_parenthesis
    rw [paramsChars_cons] at heq
    rcases List.append_eq_append_iff.mp heq with ⟨tail, rfl, htail⟩ | ⟨tail, hsplit, htail⟩
    · rcases tail with _ | ⟨first, _ | ⟨second, tail⟩⟩
      · exact absurd (List.cons.inj htail).1 (by decide)
      · exact absurd (List.cons.inj (List.cons.inj htail).2).1 (by decide)
      · obtain ⟨rfl, hspace⟩ := List.cons.inj htail
        obtain ⟨rfl, -⟩ := List.cons.inj hspace
        exact ⟨p.name.toList, tail, by simp⟩
    · cases tail with
      | nil => exact absurd (List.cons.inj htail).1 (by decide)
      | cons first tail =>
        obtain ⟨rfl, -⟩ := List.cons.inj htail
        exact absurd (by simp [hsplit]) hname

/-- A name without a colon and a space does not go on into the parameters of another signature. -/
theorem eq_nil_of_parenthesis {params : List Param} (h : Told params) {name more rest : List Char}
    (hname : ¬ [':', ' '] <:+: name ++ more)
    (heq : '(' :: paramsChars params = more ++ '(' :: rest) : more = [] := by
  cases more with
  | nil => rfl
  | cons c more =>
    have hcolon := colon_of_parenthesis h (List.cons.inj heq).2
    have hmore : more <:+: name ++ c :: more := ⟨name ++ [c], [], by simp⟩
    exact absurd (hcolon.trans hmore) hname

/-- Unmistakable signatures with loaded parameters that are shown alike are the same. -/
theorem Unmistakable.render_inj {s t : Signature} (hs : s.Unmistakable) (ht : t.Unmistakable)
    (hsload : ∀ p ∈ s.params, ∃ value, Param.ofJson value = .ok p)
    (htload : ∀ p ∈ t.params, ∃ value, Param.ofJson value = .ok p) (h : s.render = t.render) :
    s = t := by
  have hstold : Told s.params := fun p hp => ⟨hs.params p hp, hsload p hp⟩
  have httold : Told t.params := fun p hp => ⟨ht.params p hp, htload p hp⟩
  have hchars := congrArg String.toList h
  rw [toList_render, toList_render] at hchars
  have hsame : s.name = t.name ∧ paramsChars s.params = paramsChars t.params := by
    rcases List.append_eq_append_iff.mp (List.append_cancel_right hchars) with
      ⟨more, hname, hmore⟩ | ⟨more, hname, hmore⟩
    · obtain rfl := eq_nil_of_parenthesis hstold (hname ▸ ht.no_colon) hmore
      exact ⟨String.toList_inj.mp (by simpa using hname.symm), (List.cons.inj hmore).2⟩
    · obtain rfl := eq_nil_of_parenthesis httold (hname ▸ hs.no_colon) hmore
      exact ⟨String.toList_inj.mp (by simpa using hname), (List.cons.inj hmore).2.symm⟩
  obtain ⟨name, params⟩ := s
  obtain ⟨other, more⟩ := t
  obtain rfl : name = other := hsame.1
  obtain rfl : params = more := paramsChars_inj hstold httold hsame.2
  rfl

end Signature

namespace Methods

/-- The parameters of loaded methods were read. -/
theorem exists_param_of_ofJson {value : Json} {m : Methods} (h : ofJson value = .ok m)
    {key : Signature} (hkey : key ∈ m.keys) {p : Param} (hp : p ∈ key.params) :
    ∃ item, Param.ofJson item = .ok p := by
  obtain ⟨items, -, h⟩ := bind_eq_ok_iff.mp h
  obtain ⟨entries, hentries, h⟩ := bind_eq_ok_iff.mp h
  have hlisted := (ofEntries_eq_ok_iff entries m).mp (mapError_eq_ok_iff.mp h)
  obtain ⟨entry, hentry, rfl⟩ := List.mem_map.mp hkey
  obtain ⟨item, -, hread⟩ := exists_of_mapM_eq_ok hentries (hlisted ▸ hentry)
  obtain ⟨_, _, part, _, hpart⟩ := (exists_parts_of_entryOfJson hread).1 p hp
  exact ⟨part, hpart⟩

/-- Unmistakable signatures of loaded methods are shown apart. -/
theorem keys_shown_apart {value : Json} {m : Methods} (h : ofJson value = .ok m) {s t : Signature}
    (hs : s ∈ m.keys) (ht : t ∈ m.keys) (hsclear : s.Unmistakable) (htclear : t.Unmistakable)
    (hshown : s.render = t.render) : s = t :=
  hsclear.render_inj htclear (fun _ => exists_param_of_ofJson h hs)
    (fun _ => exists_param_of_ofJson h ht) hshown

end Methods

namespace ClassMember

/-- A member that is no method, or one with an unmistakable signature. -/
def Unmistakable : ClassMember → Prop
  | .attr _ _ => True
  | .method entry => entry.1.Unmistakable

/-- Unmistakable members of a class with loaded methods are the same if reports name them alike. -/
theorem eq_of_shown_eq {value : Json} {c : ClassDescription}
    (h : Methods.ofJson value = .ok c.methods) {a b : ClassMember} (ha : a ∈ c.members)
    (hb : b ∈ c.members) (haclear : a.Unmistakable) (hbclear : b.Unmistakable)
    (hshown : a.shown = b.shown) : a = b := by
  rcases List.mem_append.mp ha with ha | ha <;> rcases List.mem_append.mp hb with hb | hb <;>
    obtain ⟨entry, hentry, rfl⟩ := List.mem_map.mp ha <;>
    obtain ⟨other, hother, rfl⟩ := List.mem_map.mp hb
  · have hname : entry.1 = other.1 := Member.attribute.inj hshown
    rw [List.inj_on_of_nodup_map c.attrs.ascending.nodup_keys hentry hother hname]
  · cases hshown
  · cases hshown
  · have hkey : entry.1 = other.1 :=
      Methods.keys_shown_apart h (List.mem_map.mpr ⟨entry, hentry, rfl⟩)
        (List.mem_map.mpr ⟨other, hother, rfl⟩) haclear hbclear (Member.method.inj hshown)
    rw [List.inj_on_of_nodup_map c.methods.distinct hentry hother hkey]

end ClassMember

namespace Methods

/-- Signatures that can be told apart. Two methods of a loaded list with unmistakable signatures
that are shown alike are the same method. So a removal that a pass reports accounts for one such
member of a class at most, and tells which method of the class was removed. -/
theorem signatures_shown_apart (value : Json) (m : Methods) (h : ofJson value = .ok m) :
    (∀ s ∈ m.keys, ∀ t ∈ m.keys, s.Unmistakable → t.Unmistakable → s.render = t.render → s = t) ∧
    ∀ (f : Filter) (env : Environment) (module entity : String) (c : ClassDescription),
      env.class? module entity = some c → c.methods = m →
      ∀ r ∈ (f.report env).removals, ∀ p ∈ f.gone env, ∀ q ∈ f.gone env,
        (p.module = module ∧ p.entity = entity) → (q.module = module ∧ q.entity = entity) →
        p.member.Unmistakable → q.member.Unmistakable → f.Accounts r p → f.Accounts r q →
        p = q := by
  refine ⟨fun s hs t ht => keys_shown_apart h hs ht, ?_⟩
  intro f env module entity c hclass hmethods r _ p hp q hq hpplace hqplace hpclear hqclear hpr hqr
  have hmember : ∀ {a : PlacedMember}, a ∈ f.gone env → a.module = module ∧ a.entity = entity →
      a.className = c.name ∧ a.member ∈ c.members := by
    intro a ha hplace
    obtain ⟨found, hfound, hname, hmem⟩ := (env.mem_members_iff a).mp (List.mem_of_mem_filter ha)
    rw [hplace.1, hplace.2, hclass] at hfound
    obtain rfl := Option.some.inj hfound
    exact ⟨hname, hmem⟩
  obtain ⟨hpname, hpmem⟩ := hmember hp hpplace
  obtain ⟨hqname, hqmem⟩ := hmember hq hqplace
  have hsame := ClassMember.eq_of_shown_eq (hmethods ▸ h) hpmem hqmem hpclear hqclear
    (hpr.member.symm.trans hqr.member)
  have hparts : p.module = q.module ∧ p.entity = q.entity ∧
      p.className = q.className ∧ p.member = q.member :=
    ⟨hpplace.1.trans hqplace.1.symm, hpplace.2.trans hqplace.2.symm,
      hpname.trans hqname.symm, hsame⟩
  cases p
  cases q
  exact (PlacedMember.mk.injEq ..).mpr hparts

/-- A method with one parameter of this type and default. -/
def oneParam (type default : Json) : Json :=
  .array [.string "f", .array [.array [.string "x", type, default]]]

/-- Overloads with a number, a string and an object for a default, the last with separators in
it. -/
def plainOverloads : List (Json × Json) := [
  (.string "int32", .integer 0),
  (.string "int32", .string "Zero"),
  (.array [.string "vector", .integer 3], .object [("key", .string "a, b: c) = d")])]

/-- The methods of the overloads. -/
def plainMethods : Methods :=
  ⟨plainOverloads.map fun overload => (⟨"f", [.ofFields "x" overload.1 (some overload.2)]⟩, none),
    by decide +kernel⟩

/-- The parameters of the overloads are unmistakable. -/
theorem unmistakable_plainOverloads : ∀ overload ∈ plainOverloads,
    (Param.ofFields "x" overload.1 (some overload.2)).Unmistakable := by
  have hatoms : ∀ overload ∈ plainOverloads, ∀ atom ∈ (TypeExpr.ofJson overload.1).atoms,
      atom = .leaf "int32" ∨ atom = .leaf "vector" ∨ atom = .literal "3" := by decide +kernel
  have hzero : (Json.integer 0).Plain 0 := ⟨(by decide : Json.InWord 0), trivial⟩
  have hobject : (Json.object [("key", .string "a, b: c) = d")]).Plain 1 := by
    constructor
    · simp [Json.Exact, Json.ExactMembers]
    · simp [Json.Ordered, Json.OrderedMembers, Ascending]
  intro overload hoverload
  refine ⟨(by decide : '(' ∉ "x".toList), (by decide : ¬ [':', ' '] <:+: "x".toList),
    (by decide : ¬ [',', ' '] <:+: "x".toList), fun name hname _ => ?_,
    fun text htext => ⟨overload.2, ?_, ?_⟩⟩
  · rcases hatoms overload hoverload _ hname with heq | heq | heq
    · obtain rfl := TypeExpr.leaf.inj heq
      exact TypeExpr.not_literalText_of_head rfl (by decide) (by decide)
    · obtain rfl := TypeExpr.leaf.inj heq
      exact TypeExpr.not_literalText_of_head rfl (by decide) (by decide)
    · cases heq
  · simp only [plainOverloads, List.mem_cons, List.not_mem_nil, or_false] at hoverload
    rcases hoverload with rfl | rfl | rfl
    · exact Param.shownPlainly_of_plain hzero (Nat.zero_le _) (by simp)
    · exact Param.shownPlainly_of_head rfl (by decide) (by decide) (by decide)
    · exact Param.shownPlainly_of_plain hobject (by decide) (by simp)
  · exact Option.some.inj htext

/-- The signatures of the overloads are unmistakable. -/
theorem unmistakable_plainMethods : ∀ entry ∈ plainMethods.entries, entry.1.Unmistakable := by
  intro entry hentry
  obtain ⟨overload, hoverload, rfl⟩ := List.mem_map.mp hentry
  refine ⟨(by decide : ¬ [':', ' '] <:+: "f".toList), fun p hp => ?_⟩
  obtain rfl := List.mem_singleton.mp hp
  exact unmistakable_plainOverloads overload hoverload

/-- A model with a class that has these methods. -/
def plainModel : Environment :=
  ⟨.ofList [("geometry", .ofList [("Shape", .ofClass {
    name := "Shape"
    attrs := .empty
    methods := plainMethods
    extra := .empty })])]⟩

/-- A filter that takes the first two overloads away. -/
def plainFilter : Filter := .ofSkips (.global [.leaf "int32"])

/-- The overloads are read as these methods, which are shown as three different texts. Of the two
that the filter takes away, each removal tells which one it is about. -/
theorem signatures_shown_apart_plain :
    ofJson (.array (plainOverloads.map fun overload => oneParam overload.1 overload.2)) =
      .ok plainMethods ∧ (plainMethods.keys.map Signature.render).Nodup ∧
      (plainFilter.report plainModel).removals.length = 2 ∧
      ∀ r ∈ (plainFilter.report plainModel).removals, ∀ p ∈ plainFilter.gone plainModel,
        ∀ q ∈ plainFilter.gone plainModel, plainFilter.Accounts r p → plainFilter.Accounts r q →
        p = q := by
  have hread : ofJson (.array (plainOverloads.map fun overload => oneParam overload.1 overload.2)) =
      .ok plainMethods := by decide +kernel
  obtain ⟨hapart, hremovals⟩ := signatures_shown_apart _ _ hread
  have hkeys : ∀ s ∈ plainMethods.keys, s.Unmistakable := by
    intro s hs
    obtain ⟨entry, hentry, rfl⟩ := List.mem_map.mp hs
    exact unmistakable_plainMethods entry hentry
  have hgone : ∀ p ∈ plainFilter.gone plainModel, (p.module = "geometry" ∧ p.entity = "Shape") ∧
      p.member ∈ plainMethods.entries.map .method := by decide +kernel
  have hmember : ∀ p ∈ plainFilter.gone plainModel, p.member.Unmistakable := by
    intro p hp
    obtain ⟨entry, hentry, heq⟩ := List.mem_map.mp (hgone p hp).2
    rw [← heq]
    exact unmistakable_plainMethods entry hentry
  refine ⟨hread, plainMethods.distinct.map_on fun s hs t ht hshown => ?_, by decide +kernel,
    fun r hr p hp q hq => ?_⟩
  · exact hapart s hs t ht (hkeys s hs) (hkeys t ht) hshown
  · exact hremovals plainFilter plainModel "geometry" "Shape" _ rfl rfl r hr p hp q hq
      (hgone p hp).1 (hgone q hq).1
      (hmember p hp) (hmember q hq)

/-- Two overloads whose defaults are the number zero and the text of it. -/
def zeroDefaults : Json :=
  .array [oneParam (.string "int32") (.integer 0), oneParam (.string "int32") (.string "0")]

/-- Loaded methods may be shown alike: a string default stands without its quotes. -/
theorem not_signatures_shown_apart : ¬ ∀ (value : Json) (m : Methods), ofJson value = .ok m →
    ∀ s ∈ m.keys, ∀ t ∈ m.keys, s.render = t.render → s = t := by
  intro h
  have hzero : ∃ m, ofJson zeroDefaults = .ok m ∧
      ∃ s ∈ m.keys, ∃ t ∈ m.keys, s.render = t.render ∧ s ≠ t :=
    ⟨_, rfl, _, List.mem_cons_self .., _, List.mem_cons_of_mem _ (List.mem_cons_self ..),
      by decide +kernel, by decide +kernel⟩
  obtain ⟨m, hm, s, hs, t, ht, hrender, hne⟩ := hzero
  exact hne (h zeroDefaults m hm s hs t ht hrender)

/-- Methods that are shown alike, one pair for each way in which a signature may be mistaken: a
default for another one, for a default with a parameter behind it, or for the beginning of a list; a
name of a parameter for its type and default, or for the end of the default before it; a name of a
method for its parameters, or for its name and theirs; a name in a type for a literal. -/
def alike : List (Json × Json) := [
  (oneParam (.string "int32") (.integer 0), oneParam (.string "int32") (.string "0")),
  (oneParam (.string "int32") (.string "1, y: int32"),
    .array [.string "f", .array [.array [.string "x", .string "int32", .integer 1],
      .array [.string "y", .string "int32"]]]),
  (oneParam (.string "int32") (.array [.string "a, y: int32 = b"]),
    .array [.string "f", .array [.array [.string "x", .string "int32", .string "[\"a"],
      .array [.string "y", .string "int32", .string "b\"]"]]]),
  (.array [.string "f", .array [.array [.string "x: int32 = y", .string "int32"]]],
    oneParam (.string "int32") (.string "y: int32")),
  (.array [.string "f", .array [.array [.string "x", .string "int32", .string "a"],
      .array [.string "2, y", .string "int32"]]],
    .array [.string "f", .array [.array [.string "x", .string "int32", .string "a, 2"],
      .array [.string "y", .string "int32"]]]),
  (.array [.string "f(x: int32 = ", .array [.array [.string "y", .string "int32"]]],
    oneParam (.string "int32") (.string "(y: int32")),
  (.array [.string "f", .array [.array [.string "g(x", .string "int32"]]],
    .array [.string "f(g", .array [.array [.string "x", .string "int32"]]]),
  (oneParam (.string "true") .null, oneParam (.bool true) .null)]

/-- The methods of each pair are different and shown alike. -/
theorem render_eq_of_alike : ∀ pair ∈ alike, ∃ s t, entryOfJson pair.1 = .ok (s, none) ∧
    entryOfJson pair.2 = .ok (t, none) ∧ s ≠ t ∧ s.render = t.render := by
  intro pair hpair
  simp only [alike, List.mem_cons, List.not_mem_nil, or_false] at hpair
  rcases hpair with rfl | rfl | rfl | rfl | rfl | rfl | rfl | rfl <;>
    exact ⟨_, _, rfl, rfl, by decide +kernel, by decide +kernel⟩

end Methods

end TypeSieve
