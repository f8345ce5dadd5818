import TypeSieve.Proofs.Json.Literals

/-!
# Scanning texts

A text that begins between lexemes is scanned to a list of lexemes, whatever was scanned before it.
Gaps, punctuation, literals and runs extend such a text in front; a run needs a character behind it
that does not extend the run.
-/

namespace TypeSieve.Json

/-- Between lexemes, a text brings the given lexemes behind those that are done, up to its end. -/
def Scans (cs : List Char) (ls : List Lexeme) : Prop :=
  ∀ done, (cs.foldlM Scan.step ⟨done, .between⟩).bind Scan.finish = some (done.reverse ++ ls)

/-- The lexemes of a text are those it is scanned to. -/
theorem Scans.lexemes_eq {cs : List Char} {ls : List Lexeme} (h : Scans cs ls) :
    lexemes cs = some ls := h []

namespace Scans

variable {cs : List Char} {ls : List Lexeme}

/-- The empty text has no lexemes. -/
theorem nil : Scans [] [] := by
  intro done
  rw [List.append_nil]
  rfl

/-- What is scanned without reaching the end brings its lexemes before those of the rest. -/
theorem of_foldlM {start : List Char} {lexeme : Lexeme}
    (hstart : ∀ done, start.foldlM Scan.step ⟨done, .between⟩ = some ⟨lexeme :: done, .between⟩)
    (h : Scans cs ls) : Scans (start ++ cs) (lexeme :: ls) := by
  intro done
  rw [List.foldlM_append, hstart]
  change (cs.foldlM Scan.step ⟨lexeme :: done, .between⟩).bind Scan.finish = _
  rw [h, List.reverse_cons, List.append_assoc, List.singleton_append]

/-- A gap in front brings no lexeme. -/
theorem gap {c : Char} (hc : isGap c = true) (h : Scans cs ls) : Scans (c :: cs) ls := by
  intro done
  have hstep : Scan.step ⟨done, .between⟩ c = some ⟨done, .between⟩ := by
    simp [Scan.step, Scan.enter, hc]
  rw [List.foldlM_cons, hstep]
  exact h done

/-- Gaps in front bring no lexeme. -/
theorem gaps {start : List Char} (hstart : ∀ c ∈ start, isGap c = true) (h : Scans cs ls) :
    Scans (start ++ cs) ls := by
  induction start with
  | nil => exact h
  | cons c start ih =>
    obtain ⟨hc, hrest⟩ := List.forall_mem_cons.mp hstart
    exact (ih hrest).gap hc

/-- Punctuation in front is a lexeme. -/
theorem punctuation {c : Char} {lexeme : Lexeme} (hc : punctuation? c = some lexeme)
    (h : Scans cs ls) : Scans (c :: cs) (lexeme :: ls) := by
  have hstep : ∀ done, [c].foldlM Scan.step ⟨done, .between⟩ = some ⟨lexeme :: done, .between⟩ := by
    intro done
    unfold punctuation? at hc
    split at hc <;> cases hc <;> rfl
  exact of_foldlM hstep h

/-- A literal in front is a lexeme. -/
theorem literal (text : String) (h : Scans cs ls) :
    Scans (literalChars text ++ cs) (.text (piecesOf text) :: ls) :=
  of_foldlM (fun done => scan_literalChars done text) h

end Scans

/-- A character of runs begins a run. -/
theorem enter_runChar {c : Char} (hc : isRunChar c = true) (done : List Lexeme) :
    Scan.enter done c = some ⟨done, .run [c]⟩ := by
  have hgap : isGap c = false := by
    rw [Bool.eq_false_iff]
    intro hgap
    simp only [isGap, Bool.or_eq_true, beq_iff_eq] at hgap
    rcases hgap with ((rfl | rfl) | rfl) | rfl <;> revert hc <;> decide
  have hquote : c ≠ '"' := by
    intro heq
    subst heq
    revert hc
    decide
  simp [Scan.enter, hgap, hquote, hc]

/-- A run is gathered. -/
theorem scan_run {run : List Char} (hrun : ∀ c ∈ run, isRunChar c = true) (done : List Lexeme)
    (read : List Char) :
    run.foldlM Scan.step ⟨done, .run read⟩ = some ⟨done, .run (run.reverse ++ read)⟩ := by
  induction run generalizing read with
  | nil => rfl
  | cons c rest ih =>
    obtain ⟨hc, hrest⟩ := List.forall_mem_cons.mp hrun
    have hstep : Scan.step ⟨done, .run read⟩ c = some ⟨done, .run (c :: read)⟩ := by
      simp [Scan.step, hc]
    rw [List.foldlM_cons, hstep]
    change rest.foldlM Scan.step _ = _
    rw [ih hrest, List.reverse_cons, List.append_assoc, List.singleton_append]

/-- A run is gathered from its first character on. -/
theorem scan_run_of_between {run : List Char} (hne : run ≠ [])
    (hrun : ∀ c ∈ run, isRunChar c = true) (done : List Lexeme) :
    run.foldlM Scan.step ⟨done, .between⟩ = some ⟨done, .run run.reverse⟩ := by
  cases run with
  | nil => exact absurd rfl hne
  | cons c rest =>
    obtain ⟨hc, hrest⟩ := List.forall_mem_cons.mp hrun
    have hstep : Scan.step ⟨done, .between⟩ c = some ⟨done, .run [c]⟩ := enter_runChar hc done
    rw [List.foldlM_cons, hstep, List.reverse_cons]
    exact scan_run hrest done [c]

/-- A text of characters of words and numerals is one lexeme, if it is any. -/
theorem lexemes_of_runChars {run : List Char} (hne : run ≠ [])
    (hrun : ∀ c ∈ run, isRunChar c = true) :
    lexemes run = (readRun run).map fun lexeme => [lexeme] := by
  have hscan := scan_run_of_between hne hrun []
  rw [lexemes, Scan.start, hscan]
  change (readRun run.reverse.reverse).map _ = _
  rw [List.reverse_reverse]
  rfl

/-- A text does not continue a run. -/
def EndsRun (cs : List Char) : Prop := ∀ c ∈ cs.head?, isRunChar c = false

/-- A word or numeral in front is a lexeme, if the text behind it does not continue it. -/
theorem Scans.run {cs : List Char} {ls : List Lexeme} {run : List Char} {lexeme : Lexeme}
    (hne : run ≠ []) (hrun : ∀ c ∈ run, isRunChar c = true) (hread : readRun run = some lexeme)
    (hends : EndsRun cs) (h : Scans cs ls) : Scans (run ++ cs) (lexeme :: ls) := by
  intro done
  rw [List.foldlM_append, scan_run_of_between hne hrun]
  change (cs.foldlM Scan.step ⟨done, .run run.reverse⟩).bind Scan.finish = _
  cases cs with
  | nil =>
    have hls : ls = [] := by
      have hnil := h []
      simpa [Scan.finish] using hnil.symm
    simp [Scan.finish, hread, hls]
  | cons next cs =>
    have hnext : isRunChar next = false := hends next rfl
    have hstep : Scan.step ⟨done, .run run.reverse⟩ next =
        Scan.step ⟨lexeme :: done, .between⟩ next := by
      simp only [Scan.step, hnext, Bool.false_eq_true, if_false, List.reverse_reverse, hread,
        Option.bind_some]
    have hrest := h (lexeme :: done)
    rw [List.foldlM_cons] at hrest ⊢
    rw [hstep, hrest, List.reverse_cons, List.append_assoc, List.singleton_append]

end TypeSieve.Json
