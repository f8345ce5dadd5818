import TypeSieve.Json.Form

/-!
# The lexemes of a syntax tree

Every syntax tree has a list of lexemes from which the builder makes it again. Inside any unfinished
arrays and objects, the lexemes of a tree lead from where a value is due to behind the tree.
-/

namespace TypeSieve.Json

/-- Induction on a tree, with the items of arrays and the members of objects at hand. -/
@[elab_as_elim]
theorem Form.ind {motive : Form → Prop} (null : motive .null) (bool : ∀ value, motive (.bool value))
    (numeral : ∀ n, motive (.numeral n)) (text : ∀ pieces, motive (.text pieces))
    (array : ∀ items, (∀ item ∈ items, motive item) → motive (.array items))
    (object : ∀ members, (∀ member ∈ members, motive member.2) → motive (.object members))
    (form : Form) : motive form :=
  @Form.rec motive (fun items => ∀ item ∈ items, motive item)
    (fun members => ∀ member ∈ members, motive member.2) (fun member => motive member.2)
    null bool numeral text array object
    (fun _ hmem => nomatch hmem) (fun _ _ hitem hrest => List.forall_mem_cons.mpr ⟨hitem, hrest⟩)
    (fun _ hmem => nomatch hmem)
      (fun _ _ hmember hrest => List.forall_mem_cons.mpr ⟨hmember, hrest⟩)
    (fun _ _ hform => hform) form

mutual

/-- The lexemes of a tree. -/
def Form.tokens : Form → List Lexeme
  | .null => [.null]
  | .bool value => [.bool value]
  | .numeral n => [.numeral n]
  | .text pieces => [.text pieces]
  | .array items => .openArray :: itemTokens items ++ [.closeArray]
  | .object members => .openObject :: memberTokens members ++ [.closeObject]

/-- The lexemes of the items of an array, with commas between them. -/
def itemTokens : List Form → List Lexeme
  | [] => []
  | item :: rest =>
    item.tokens ++ (match rest with | [] => [] | _ :: _ => .comma :: itemTokens rest)

/-- The lexemes of the members of an object, with commas between them. -/
def memberTokens : List (List Piece × Form) → List Lexeme
  | [] => []
  | (key, form) :: rest =>
    .text key :: .colon :: form.tokens ++
      (match rest with | [] => [] | _ :: _ => .comma :: memberTokens rest)

end

namespace Build

/-- The builder after further lexemes. -/
def run (b : Build) (lexemes : List Lexeme) : Option Build := lexemes.foldlM step b

/-- Building begins with a step. -/
@[simp] theorem run_cons (b : Build) (lexeme : Lexeme) (rest : List Lexeme) :
    b.run (lexeme :: rest) = (b.step lexeme).bind fun next => next.run rest := rfl

/-- The lexemes of a tree lead behind it. -/
def Builds (form : Form) : Prop :=
  ∀ frames rest, run ⟨frames, .value⟩ (form.tokens ++ rest) = run ⟨frames, .after form⟩ rest

/-- The lexemes of items lead from the first of them behind the array. -/
theorem run_items {item : Form} {items : List Form} (h : ∀ form ∈ item :: items, Builds form)
    (read : List Form) (frames : List Frame) (rest : List Lexeme) :
    run ⟨.items read :: frames, .value⟩ (itemTokens (item :: items) ++ .closeArray :: rest) =
      run ⟨frames, .after (.array (read.reverse ++ item :: items))⟩ rest := by
  obtain ⟨hitem, hitems⟩ := List.forall_mem_cons.mp h
  induction items generalizing item read with
  | nil =>
    rw [itemTokens, List.append_nil, hitem]
    simp [step, extend]
  | cons next items ih =>
    obtain ⟨hnext, hrest⟩ := List.forall_mem_cons.mp hitems
    rw [itemTokens, List.append_assoc, hitem]
    have hcomma : step ⟨.items read :: frames, .after item⟩ .comma =
        some ⟨.items (item :: read) :: frames, .value⟩ := rfl
    rw [List.cons_append, run_cons, hcomma, Option.bind_some, ih hitems (item :: read) hnext hrest,
      List.reverse_cons, List.append_assoc, List.singleton_append]

/-- The lexemes of members lead from behind the first key behind the object. -/
theorem run_members {key : List Piece} {form : Form} {members : List (List Piece × Form)}
    (h : ∀ member ∈ (key, form) :: members, Builds member.2) (read : List (List Piece × Form))
    (frames : List Frame) (rest : List Lexeme) :
    run ⟨frames, .colon read key⟩
        ((memberTokens ((key, form) :: members)).tail ++ .closeObject :: rest) =
      run ⟨frames, .after (.object (read.reverse ++ (key, form) :: members))⟩ rest := by
  obtain ⟨hform, hmembers⟩ := List.forall_mem_cons.mp h
  have hcolon : step ⟨frames, .colon read key⟩ .colon =
      some ⟨.members read key :: frames, .value⟩ := rfl
  induction members generalizing key form read with
  | nil =>
    rw [memberTokens, List.cons_append, List.tail_cons, List.cons_append, List.cons_append,
      run_cons, hcolon, Option.bind_some, List.append_nil, hform]
    simp [step, extend]
  | cons next members ih =>
    obtain ⟨hnext, hrest⟩ := List.forall_mem_cons.mp hmembers
    obtain ⟨nextKey, nextForm⟩ := next
    rw [memberTokens, List.cons_append, List.tail_cons, List.cons_append, List.cons_append,
      run_cons, hcolon, Option.bind_some, List.append_assoc, hform]
    have hcomma : step ⟨.members read key :: frames, .after form⟩ .comma =
        some ⟨frames, .key ((key, form) :: read)⟩ := rfl
    have hkey : step ⟨frames, .key ((key, form) :: read)⟩ (.text nextKey) =
        some ⟨frames, .colon ((key, form) :: read) nextKey⟩ := rfl
    have htokens : memberTokens ((nextKey, nextForm) :: members) =
        .text nextKey :: (memberTokens ((nextKey, nextForm) :: members)).tail := rfl
    dsimp only
    rw [List.cons_append, run_cons, hcomma, Option.bind_some, htokens, List.cons_append, run_cons,
      hkey, Option.bind_some, ih hmembers ((key, form) :: read) hnext hrest rfl,
      List.reverse_cons, List.append_assoc, List.singleton_append]

/-- The lexemes of items do not begin with one that closes an array. -/
theorem itemTokens_eq_cons (item : Form) (items : List Form) :
    ∃ lexeme rest, itemTokens (item :: items) = lexeme :: rest ∧ lexeme ≠ .closeArray := by
  cases item <;> exact ⟨_, _, rfl, by simp⟩

/-- Where the first item of an array is due, any lexeme but the closing one begins it. -/
theorem run_firstItem (frames : List Frame) {lexeme : Lexeme} (h : lexeme ≠ .closeArray)
    (rest : List Lexeme) :
    run ⟨frames, .firstItem⟩ (lexeme :: rest) =
      run ⟨.items [] :: frames, .value⟩ (lexeme :: rest) := by
  rw [run_cons, run_cons]
  cases lexeme <;> first | rfl | exact absurd rfl h

/-- The lexemes of every tree lead behind it. -/
theorem builds (form : Form) : Builds form := by
  induction form using Form.ind with
  | null => exact fun frames rest => rfl
  | bool value => exact fun frames rest => rfl
  | numeral n => exact fun frames rest => rfl
  | text pieces => exact fun frames rest => rfl
  | array items ih =>
    intro frames rest
    rw [Form.tokens, List.cons_append, List.cons_append, run_cons]
    change run ⟨frames, .firstItem⟩ _ = _
    cases items with
    | nil => rfl
    | cons item items =>
      have hfirst := run_items ih [] frames rest
      obtain ⟨lexeme, more, hitems, hlexeme⟩ := itemTokens_eq_cons item items
      rw [List.append_assoc, List.singleton_append]
      rw [hitems] at hfirst ⊢
      rw [List.cons_append, run_firstItem frames hlexeme, ← List.cons_append, hfirst]
      rfl
  | object members ih =>
    intro frames rest
    rw [Form.tokens, List.cons_append, List.cons_append, run_cons]
    change run ⟨frames, .firstKey⟩ _ = _
    cases members with
    | nil => rfl
    | cons member members =>
      obtain ⟨key, form⟩ := member
      have hfirst := run_members ih [] frames rest
      rw [List.append_assoc]
      exact hfirst

end Build

/-- The lexemes of a tree are built to the tree. -/
theorem foldlM_tokens (form : Form) :
    (form.tokens.foldlM Build.step Build.start).bind Build.finish = some form := by
  have h := Build.builds form [] []
  rw [List.append_nil] at h
  change (Build.run ⟨[], .value⟩ form.tokens).bind Build.finish = some form
  rw [h]
  rfl

end TypeSieve.Json
