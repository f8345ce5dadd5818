import TypeSieve.Proofs.Json.Integers
import TypeSieve.Proofs.Json.Scanning
import TypeSieve.Proofs.Json.Tokens
import TypeSieve.Proofs.Json.Values

/-!
# Scanning printed values

The compact and the pretty text of a value without binary64 numbers are scanned to the lexemes of
its syntax tree. The two texts differ in gaps only: both are items or members with a comma and a gap
between them, inside brackets and gaps.
-/

namespace TypeSieve.Json

/-- In front of a text that does not continue a run, a text brings the given lexemes. -/
def Spells (text : List Char) (tokens : List Lexeme) : Prop :=
  ∀ rest ls, EndsRun rest → Scans rest ls → Scans (text ++ rest) (tokens ++ ls)

namespace Spells

variable {text more : List Char} {tokens others : List Lexeme}

/-- What is spelled up to the end of a text is scanned. -/
theorem scans (h : Spells text tokens) : Scans text tokens := by
  have hall := h [] [] (fun c hc => nomatch hc) Scans.nil
  rw [List.append_nil, List.append_nil] at hall
  exact hall

/-- The empty text spells nothing. -/
theorem nil : Spells [] [] := fun _ _ _ hrest => hrest

/-- Gaps in front change nothing. -/
theorem gaps {start : List Char} (hstart : ∀ c ∈ start, isGap c = true) (h : Spells text tokens) :
    Spells (start ++ text) tokens := by
  intro rest ls hends hrest
  rw [List.append_assoc]
  exact (h rest ls hends hrest).gaps hstart

/-- Punctuation in front is one more lexeme. -/
theorem punctuation {c : Char} {lexeme : Lexeme} (hc : punctuation? c = some lexeme)
    (h : Spells text tokens) : Spells (c :: text) (lexeme :: tokens) :=
  fun rest ls hends hrest => (h rest ls hends hrest).punctuation hc

/-- A literal in front is one more lexeme. -/
theorem literal (name : String) (h : Spells text tokens) :
    Spells (literalChars name ++ text) (.text (piecesOf name) :: tokens) := by
  intro rest ls hends hrest
  rw [List.append_assoc]
  exact (h rest ls hends hrest).literal name

/-- A text is followed by another that does not continue a run. -/
theorem append (h : Spells text tokens) (hends : ∀ c ∈ more.head?, isRunChar c = false)
    (hne : more ≠ []) (hmore : Spells more others) : Spells (text ++ more) (tokens ++ others) := by
  intro rest ls hrest hscan
  rw [List.append_assoc, List.append_assoc]
  refine h _ _ ?_ (hmore rest ls hrest hscan)
  cases more with
  | nil => exact absurd rfl hne
  | cons c more => exact hends

end Spells

/-- A gap is no character of runs. -/
theorem isRunChar_of_isGap {c : Char} (h : isGap c = true) : isRunChar c = false := by
  simp only [isGap, Bool.or_eq_true, beq_iff_eq] at h
  rcases h with ((rfl | rfl) | rfl) | rfl <;> decide

/-- Brackets and gaps around a text bring a lexeme on either side. -/
theorem Spells.enclosed {text start stop : List Char} {tokens : List Lexeme} {c d : Char}
    {first last : Lexeme} (h : Spells text tokens) (hstart : ∀ x ∈ start, isGap x = true)
    (hstop : ∀ x ∈ stop, isGap x = true) (hc : punctuation? c = some first)
    (hd : punctuation? d = some last) (hrun : isRunChar d = false) :
    Spells (c :: start ++ text ++ stop ++ [d]) (first :: tokens ++ [last]) := by
  have hclose : Spells (stop ++ [d]) [last] := (Spells.nil.punctuation hd).gaps hstop
  have hends : ∀ x ∈ (stop ++ [d]).head?, isRunChar x = false := by
    cases stop with
    | nil => simpa using hrun
    | cons x stop => simpa using isRunChar_of_isGap (hstop x (by simp))
  have hinner : Spells (start ++ (text ++ (stop ++ [d]))) (tokens ++ [last]) :=
    (h.append hends (by simp) hclose).gaps hstart
  simpa using hinner.punctuation hc

/-- Texts with commas and gaps between them bring their lexemes with commas between them. -/
theorem spells_intercalate {α : Type} {gap : List Char} (hgap : ∀ c ∈ gap, isGap c = true)
    (text : α → List Char) (tokens : α → List Lexeme) {xs : List α}
    (h : ∀ x ∈ xs, Spells (text x) (tokens x)) :
    Spells ((',' :: gap).intercalate (xs.map text))
      ([Lexeme.comma].intercalate (xs.map tokens)) := by
  induction xs with
  | nil => exact Spells.nil
  | cons x xs ih =>
    obtain ⟨hx, hxs⟩ := List.forall_mem_cons.mp h
    cases xs with
    | nil => simpa using hx
    | cons y ys =>
      have hcomma : punctuation? ',' = some .comma := rfl
      have hrest := ((ih hxs).gaps hgap).punctuation hcomma
      have happend := hx.append (by simp; decide) (by simp) hrest
      simpa using happend

/-- A function that joins texts with a separator between them is the intercalation. -/
theorem eq_intercalate {α β : Type} {join : List α → List β} {separator : List β}
    {text : α → List β} (hnil : join [] = []) (hone : ∀ x, join [x] = text x)
    (hmore : ∀ x y ys, join (x :: y :: ys) = text x ++ (separator ++ join (y :: ys)))
    (xs : List α) : join xs = separator.intercalate (xs.map text) := by
  induction xs with
  | nil => exact hnil
  | cons x xs ih =>
    cases xs with
    | nil => simpa using hone x
    | cons y ys => simp [hmore, ih]

/-- The lexemes of items have commas between them. -/
theorem itemTokens_eq_intercalate (items : List Form) :
    itemTokens items = [Lexeme.comma].intercalate (items.map Form.tokens) :=
  eq_intercalate rfl (fun _ => List.append_nil _) (fun _ _ _ => rfl) items

/-- The lexemes of members have commas between them. -/
theorem memberTokens_eq_intercalate (members : List (List Piece × Form)) :
    memberTokens members = [Lexeme.comma].intercalate
      (members.map fun member => .text member.1 :: .colon :: member.2.tokens) :=
  eq_intercalate rfl (fun _ => List.append_nil _) (fun _ _ _ => rfl) members

/-- The compact texts of items have commas between them. -/
theorem compactItems_eq_intercalate (items : List Json) :
    compactItems items = [','].intercalate (items.map compactChars) :=
  eq_intercalate rfl (fun _ => List.append_nil _) (fun _ _ _ => rfl) items

/-- The compact texts of members have commas between them. -/
theorem compactMembers_eq_intercalate (members : List (String × Json)) :
    compactMembers members = [','].intercalate
      (members.map fun member => literalChars member.1 ++ ':' :: compactChars member.2) :=
  eq_intercalate rfl (fun _ => List.append_nil _) (fun _ _ _ => rfl) members

/-- The pretty texts of items have commas and line breaks between them. -/
theorem prettyItems_eq_intercalate (level : Nat) (items : List Json) :
    prettyItems level items =
      (',' :: breakLine level).intercalate (items.map (prettyChars level)) :=
  eq_intercalate rfl (fun _ => List.append_nil _) (fun _ _ _ => rfl) items

/-- The pretty texts of members have commas and line breaks between them. -/
theorem prettyMembers_eq_intercalate (level : Nat) (members : List (String × Json)) :
    prettyMembers level members = (',' :: breakLine level).intercalate
      (members.map fun member => literalChars member.1 ++
        ':' :: ' ' :: prettyChars level member.2) :=
  eq_intercalate rfl (fun _ => List.append_nil _) (fun _ _ _ => rfl) members

/-- A line break with its indentation is a gap. -/
theorem isGap_breakLine (level : Nat) : ∀ c ∈ breakLine level, isGap c = true := by
  intro c hc
  rcases List.mem_cons.mp hc with rfl | hspace
  · rfl
  · rw [List.eq_of_mem_replicate hspace]
    rfl

/-- A word or numeral spells the lexeme that it is read as. -/
theorem spells_run {run : List Char} {lexeme : Lexeme} (hne : run ≠ [])
    (hrun : ∀ c ∈ run, isRunChar c = true) (hread : readRun run = some lexeme) :
    Spells run [lexeme] :=
  fun _ _ hends hrest => hrest.run hne hrun hread hends

/-- The text of an integer spells its numeral. -/
theorem spells_integer (n : Int) : Spells (integerChars n) [.numeral (.ofInt n)] := by
  have hdigit : ∀ {k : Nat} {c : Char}, c ∈ natDigits k → isRunChar c = true := by
    intro k c hc
    simp [isRunChar, isDigit_of_mem_natDigits hc]
  have hrun : ∀ c ∈ integerChars n, isRunChar c = true := by
    cases n with
    | ofNat k => exact fun c hc => hdigit hc
    | negSucc k =>
      intro c hc
      rcases List.mem_cons.mp hc with rfl | hc
      · rfl
      · exact hdigit hc
  have hne : integerChars n ≠ [] := by
    cases n with
    | ofNat k => exact natDigits_ne_nil k
    | negSucc k => exact List.cons_ne_nil _ _
  have hnumeral := ofChars?_integerChars n
  have hword : ∀ {word : List Char}, Numeral.ofChars? word = none → integerChars n ≠ word := by
    intro word hnone heq
    rw [← heq, hnumeral] at hnone
    cases hnone
  have hread : readRun (integerChars n) = some (.numeral (.ofInt n)) := by
    rw [readRun, if_neg (hword (by decide)), if_neg (hword (by decide)), if_neg (hword (by decide)),
      hnumeral, Option.map_some]
  exact spells_run hne hrun hread

/-- The text of an array spells its tree, whatever gaps stand behind its commas and inside its
brackets. -/
theorem spells_array {gap stop : List Char} (hgap : ∀ c ∈ gap, isGap c = true)
    (hstop : ∀ c ∈ stop, isGap c = true) (text : Json → List Char) {items : List Json}
    (h : ∀ item ∈ items, Spells (text item) item.form.tokens) :
    Spells ('[' :: gap ++ (',' :: gap).intercalate (items.map text) ++ stop ++ [']'])
      (Json.array items).form.tokens := by
  have hitems := spells_intercalate hgap text (fun item => item.form.tokens) h
  rw [form, Form.tokens, itemTokens_eq_intercalate, formItems_eq_map, List.map_map]
  exact hitems.enclosed hgap hstop rfl rfl rfl

/-- The text of an object spells its tree, whatever gaps stand behind its commas and colons and
inside its brackets. -/
theorem spells_object {gap stop space : List Char} (hgap : ∀ c ∈ gap, isGap c = true)
    (hstop : ∀ c ∈ stop, isGap c = true) (hspace : ∀ c ∈ space, isGap c = true)
    (text : Json → List Char) {members : List (String × Json)}
    (h : ∀ member ∈ members, Spells (text member.2) member.2.form.tokens) :
    Spells ('\x7b' :: gap ++ (',' :: gap).intercalate
        (members.map fun member => literalChars member.1 ++ ':' :: (space ++ text member.2)) ++
          stop ++ ['\x7d'])
      (Json.object members).form.tokens := by
  have hmembers := spells_intercalate hgap
    (fun member : String × Json => literalChars member.1 ++ ':' :: (space ++ text member.2))
    (fun member => .text (piecesOf member.1) :: .colon :: member.2.form.tokens)
    fun member hmember => (((h member hmember).gaps hspace).punctuation rfl).literal member.1
  rw [form, Form.tokens, memberTokens_eq_intercalate, formMembers_eq_map, List.map_map]
  exact hmembers.enclosed hgap hstop rfl rfl rfl

/-- The text of a value that holds no other value spells its tree. -/
theorem spells_scalarChars {value : Json} {depth : Nat} (h : value.Exact depth)
    (harray : ∀ items, value ≠ .array items) (hobject : ∀ members, value ≠ .object members) :
    Spells (scalarChars value) value.form.tokens := by
  cases value with
  | null => exact spells_run (List.cons_ne_nil _ _) (List.all_eq_true.mp rfl) rfl
  | bool value =>
    cases value <;> exact spells_run (List.cons_ne_nil _ _) (List.all_eq_true.mp rfl) rfl
  | integer n => exact spells_integer n
  | double x => exact absurd h (by simp [Exact])
  | string text => simpa [scalarChars, form, Form.tokens] using Spells.nil.literal text
  | array items => exact absurd rfl (harray items)
  | object members => exact absurd rfl (hobject members)

/-- Nothing is no gap. -/
theorem isGap_nil : ∀ c ∈ ([] : List Char), isGap c = true := fun _ hc => nomatch hc

/-- The compact text of a value without binary64 numbers spells its tree. -/
theorem spells_compactChars {value : Json} {depth : Nat} (h : value.Exact depth) :
    Spells (compactChars value) value.form.tokens := by
  induction value using Json.ind generalizing depth with
  | null => exact spells_scalarChars h (by simp) (by simp)
  | bool value => exact spells_scalarChars h (by simp) (by simp)
  | integer n => exact spells_scalarChars h (by simp) (by simp)
  | double x => exact spells_scalarChars h (by simp) (by simp)
  | string text => exact spells_scalarChars h (by simp) (by simp)
  | array items ih =>
    obtain ⟨inner, -, hitems⟩ := (exact_array_iff depth items).mp h
    have harray := spells_array isGap_nil isGap_nil compactChars
      fun item hitem => ih item hitem (hitems item hitem)
    rw [compactChars, compactItems_eq_intercalate]
    simpa using harray
  | object members ih =>
    obtain ⟨inner, -, hmembers⟩ := (exact_object_iff depth members).mp h
    have hobject := spells_object isGap_nil isGap_nil isGap_nil compactChars
      fun member hmember => ih member hmember (hmembers member hmember)
    rw [compactChars, compactMembers_eq_intercalate]
    simpa using hobject

/-- The pretty text of a value without binary64 numbers spells its tree on every level. -/
theorem spells_prettyChars {value : Json} {depth : Nat} (h : value.Exact depth) (level : Nat) :
    Spells (prettyChars level value) value.form.tokens := by
  induction value using Json.ind generalizing depth level with
  | null => exact spells_scalarChars h (by simp) (by simp)
  | bool value => exact spells_scalarChars h (by simp) (by simp)
  | integer n => exact spells_scalarChars h (by simp) (by simp)
  | double x => exact spells_scalarChars h (by simp) (by simp)
  | string text => exact spells_scalarChars h (by simp) (by simp)
  | array items ih =>
    obtain ⟨inner, -, hitems⟩ := (exact_array_iff depth items).mp h
    cases items with
    -- Without items there is no line break between the brackets.
    | nil => exact (Spells.nil.punctuation rfl).punctuation rfl
    | cons item rest =>
      have harray := spells_array (isGap_breakLine (level + 1)) (isGap_breakLine level)
        (prettyChars (level + 1)) fun item hitem => ih item hitem (hitems item hitem) (level + 1)
      rw [prettyChars, prettyItems_eq_intercalate]
      exact harray
  | object members ih =>
    obtain ⟨inner, -, hmembers⟩ := (exact_object_iff depth members).mp h
    cases members with
    | nil => exact (Spells.nil.punctuation rfl).punctuation rfl
    | cons member rest =>
      have hspace : ∀ c ∈ [' '], isGap c = true := List.all_eq_true.mp rfl
      have hobject := spells_object (isGap_breakLine (level + 1)) (isGap_breakLine level) hspace
        (prettyChars (level + 1)) fun member hmember =>
          ih member hmember (hmembers member hmember) (level + 1)
      rw [prettyChars, prettyMembers_eq_intercalate]
      exact hobject

/-- The compact text of a value without binary64 numbers has the tree of the value. -/
theorem ofChars?_compactChars {value : Json} {depth : Nat} (h : value.Exact depth) :
    Form.ofChars? (compactChars value) = some value.form := by
  rw [Form.ofChars?, (spells_compactChars h).scans.lexemes_eq, Option.bind_some]
  exact foldlM_tokens value.form

/-- The pretty text of a value without binary64 numbers, with any gap behind it, has the tree of the
value. -/
theorem ofChars?_prettyChars {value : Json} {depth : Nat} (h : value.Exact depth) {gap : List Char}
    (hgap : ∀ c ∈ gap, isGap c = true) :
    Form.ofChars? (prettyChars 0 value ++ gap) = some value.form := by
  have hends : EndsRun gap := by
    intro c hc
    exact isRunChar_of_isGap (hgap c (List.mem_of_mem_head? hc))
  have hrest : Scans gap [] := by
    have hnil := Scans.nil.gaps hgap
    rwa [List.append_nil] at hnil
  have hscan := spells_prettyChars h 0 gap [] hends hrest
  rw [List.append_nil] at hscan
  rw [Form.ofChars?, hscan.lexemes_eq, Option.bind_some]
  exact foldlM_tokens value.form

end TypeSieve.Json
