import TypeSieve.Proofs.TypeExpr.ReadBack
import TypeSieve.Proofs.Text.Strip

/-!
# Where the parts of a notation end

Two texts that agree are split at the same places if each of their parts is a longest run: of
spacing, of bare characters, or of anything but quotes. Behind an expression inside a tuple stands a
comma or a closing parenthesis, which no such run goes past.
-/

namespace TypeSieve.Notation

/-- A text is empty or begins where an item of a tuple ends. -/
def AtSeam (cs : List Char) : Prop := ∀ c ∈ cs.head?, c = ',' ∨ c = ')'

/-- A text is empty or begins with a character that ends a bare run. -/
def EndsRun (cs : List Char) : Prop := ∀ c ∈ cs.head?, TypeExpr.isBare c = false

/-- A text begins with a character that is not blank. -/
def BeginsVisibly (cs : List Char) : Prop := ∃ c rest, cs = c :: rest ∧ c ∉ Text.blanks

/-- Texts that begin with the longest run of one kind of characters are split in one way. -/
theorem append_inj_of_runs {p : Char → Prop} {a b s t : List Char} (ha : ∀ c ∈ a, p c)
    (hb : ∀ c ∈ b, p c) (hs : ∀ c ∈ s.head?, ¬ p c) (ht : ∀ c ∈ t.head?, ¬ p c)
    (h : a ++ s = b ++ t) : a = b ∧ s = t := by
  induction a generalizing b with
  | nil =>
    cases b with
    | nil => exact ⟨rfl, h⟩
    | cons d rest =>
      have hhead : s.head? = some d := congrArg List.head? h
      exact absurd (hb d (List.mem_cons_self ..)) (hs d hhead)
  | cons c rest ih =>
    cases b with
    | nil =>
      have hhead : t.head? = some c := (congrArg List.head? h).symm
      exact absurd (ha c (List.mem_cons_self ..)) (ht c hhead)
    | cons d more =>
      obtain ⟨rfl, htail⟩ := List.cons.inj h
      obtain ⟨rfl, hst⟩ := ih (List.forall_mem_cons.mp ha).2 (List.forall_mem_cons.mp hb).2 htail
      exact ⟨rfl, hst⟩

/-- Spacing characters are blank. -/
theorem mem_blanks_of_spacing {c : Char} (hc : c ∈ [' ', '\t', '\r', '\n']) : c ∈ Text.blanks := by
  simp only [List.mem_cons, List.not_mem_nil, or_false] at hc
  rcases hc with rfl | rfl | rfl | rfl <;> decide

/-- Behind spacing, what begins visibly begins at one place. -/
theorem append_inj_of_spacing {a b s t : List Char} (ha : Spacing a) (hb : Spacing b)
    (hs : BeginsVisibly s) (ht : BeginsVisibly t) (h : a ++ s = b ++ t) : a = b ∧ s = t := by
  have hvisible : ∀ {u : List Char}, BeginsVisibly u →
      ∀ c ∈ u.head?, c ∉ [' ', '\t', '\r', '\n'] := by
    rintro u ⟨d, rest, rfl, hd⟩ c hc hspacing
    obtain rfl := Option.some.inj hc
    exact hd (mem_blanks_of_spacing hspacing)
  exact append_inj_of_runs ha hb (hvisible hs) (hvisible ht) h

/-- What begins visibly still does so with more behind it. -/
theorem BeginsVisibly.append {cs : List Char} (h : BeginsVisibly cs) (more : List Char) :
    BeginsVisibly (cs ++ more) := by
  obtain ⟨c, rest, rfl, hc⟩ := h
  exact ⟨c, rest ++ more, rfl, hc⟩

/-- A bare run begins visibly. -/
theorem Bare.beginsVisibly {cs : List Char} (h : Bare cs) : BeginsVisibly cs := by
  obtain ⟨hne, hall⟩ := h
  obtain ⟨c, rest, rfl⟩ := List.exists_cons_of_ne_nil hne
  exact ⟨c, rest, rfl, (hall c (List.mem_cons_self ..)).1⟩

/-- A seam ends a bare run, with spacing before it or without. -/
theorem endsRun_of_spacing_append {after s : List Char} (hafter : Spacing after) (hs : AtSeam s) :
    EndsRun (after ++ s) := by
  intro c hc
  cases after with
  | nil =>
    rcases hs c hc with rfl | rfl
    · decide
    · decide
  | cons d rest =>
    obtain rfl := Option.some.inj hc
    have hblank := mem_blanks_of_spacing (hafter d (List.mem_cons_self ..))
    simp [TypeExpr.isBare, (Text.isBlank_iff d).mpr hblank]

/-- No spacing stands before a seam if none stood there. -/
theorem eq_nil_of_spacing_append {after s t : List Char} (hafter : Spacing after) (ht : AtSeam t)
    (h : after ++ s = t) : after = [] := by
  cases after with
  | nil => rfl
  | cons d rest =>
    have hspacing := hafter d (List.mem_cons_self ..)
    have hhead : t.head? = some d := (congrArg List.head? h).symm
    rcases ht d hhead with rfl | rfl
    · exact absurd hspacing (by decide)
    · exact absurd hspacing (by decide)

/-- Bare runs in the same place are the same. -/
theorem Bare.append_inj {a b s t : List Char} (ha : Bare a) (hb : Bare b) (hs : EndsRun s)
    (ht : EndsRun t) (h : a ++ s = b ++ t) : a = b ∧ s = t := by
  rw [bare_iff] at ha hb
  have hends : ∀ {u : List Char}, EndsRun u → ∀ c ∈ u.head?, ¬ TypeExpr.isBare c = true := by
    intro u hu c hc
    simp [hu c hc]
  exact append_inj_of_runs ha.2 hb.2 (hends hs) (hends ht) h

/-- A bare run begins with neither quote. -/
theorem Bare.append_ne_quote {cs s t : List Char} {mark : Char} (hbare : Bare cs)
    (hmark : mark = '"' ∨ mark = '\'') : cs ++ s ≠ mark :: t := by
  obtain ⟨hne, hall⟩ := hbare
  obtain ⟨c, rest, rfl⟩ := List.exists_cons_of_ne_nil hne
  intro h
  obtain ⟨rfl, -⟩ := List.cons.inj h
  have hc := (hall c (List.mem_cons_self ..)).2
  rcases hmark with rfl | rfl
  · exact hc (by decide)
  · exact hc (by decide)

/-- Texts between quotes in the same place are the same, if they hold no quote. -/
theorem quoted_append_inj {mark : Char} {a b s t : List Char} (ha : mark ∉ a) (hb : mark ∉ b)
    (h : a ++ mark :: s = b ++ mark :: t) : a = b := by
  have hne : ∀ {u : List Char}, mark ∉ u → ∀ c ∈ u, c ≠ mark := fun hu c hc heq => hu (heq ▸ hc)
  exact (append_inj_of_runs (hne ha) (hne hb) (by simp) (by simp) h).1

end TypeSieve.Notation
