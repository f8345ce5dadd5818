import TypeSieve.TypeExpr.Printer

/-!
# Reading tuple notation

An expression is a tuple or an atom with spacing on both sides. A tuple holds expressions separated
by commas, with an optional comma behind the last. An atom is a text between double or single
quotes, taken verbatim, or a run of bare characters; a run that JSON reads as a number is a
literal. The reader is a fold of one step over the characters, with the unfinished tuples as a
stack, and stands on a complete expression exactly when no tuple is unfinished and a value was read.
-/

namespace TypeSieve

namespace TypeExpr

/-- The type of a bare run: the canonical literal of a number, or a name. -/
def ofBare (run : String) : TypeExpr :=
  match Json.parse? run with
  | some (.integer value) => .literal (Json.integer value).compact
  | some (.double value) => .literal (Json.double value).compact
  | _ => .leaf run

/-- What the reader is in the middle of; the characters of an unfinished atom come last first. -/
inductive Phase where
  | item
  | bare (read : List Char)
  | quoted (mark : Char) (read : List Char)
  | after (done : TypeExpr)

/-- A reader inside its unfinished tuples, innermost first, the items of each last first. -/
structure Reading where
  tuples : List (List TypeExpr)
  phase : Phase

namespace Reading

/-- The reader before the first character. -/
def start : Reading := ⟨[], .item⟩

/-- Take a character behind a complete item. -/
def follow (tuples : List (List TypeExpr)) (done : TypeExpr) (c : Char) : Option Reading :=
  if Text.isSpacing c then some ⟨tuples, .after done⟩
  else match tuples with
    | [] => none
    | items :: outer =>
      if c = ',' then some ⟨(done :: items) :: outer, .item⟩
      else if c = ')' then some ⟨outer, .after (.tuple (done :: items).reverse)⟩
      else none

/-- Take a character where an item is due. -/
def enter (tuples : List (List TypeExpr)) (c : Char) : Option Reading :=
  if Text.isSpacing c then some ⟨tuples, .item⟩
  else if c = '(' then some ⟨[] :: tuples, .item⟩
  else if c = ')' then
    match tuples with
    | [] => none
    | items :: outer => some ⟨outer, .after (.tuple items.reverse)⟩
  else if c = '"' ∨ c = '\'' then some ⟨tuples, .quoted c []⟩
  else if isBare c then some ⟨tuples, .bare [c]⟩
  else none

/-- Take one character. -/
def step (r : Reading) (c : Char) : Option Reading :=
  match r.phase with
  | .item => enter r.tuples c
  | .bare read =>
    if isBare c then some ⟨r.tuples, .bare (c :: read)⟩
    else follow r.tuples (ofBare (String.ofList read.reverse)) c
  | .quoted mark read =>
    if c = mark then some ⟨r.tuples, .after (.leaf (String.ofList read.reverse))⟩
    else some ⟨r.tuples, .quoted mark (c :: read)⟩
  | .after done => follow r.tuples done c

/-- The expression that the characters so far spell completely. -/
def complete? (r : Reading) : Option TypeExpr :=
  match r.tuples, r.phase with
  | [], .bare read => some (ofBare (String.ofList read.reverse))
  | [], .after done => some done
  | _, _ => none

/-- How many bytes of the text belong to the longest beginning that is a complete expression:
`best` bytes so far, when the reader stands at byte `offset`. -/
def reach (r : Reading) (offset best : Nat) : List Char → Nat
  | [] => best
  | c :: rest =>
    match r.step c with
    | none => best
    | some next =>
      let position := offset + c.utf8Size
      reach next position (if next.complete?.isSome then position else best) rest

end Reading

/-- Read a complete expression. -/
def ofChars? (cs : List Char) : Option TypeExpr :=
  (cs.foldlM Reading.step Reading.start).bind Reading.complete?

end TypeExpr

/-- Why a text is no type pattern. Texts are kept without the blanks around them. -/
inductive PatternError where
  /-- There is nothing but blanks. -/
  | blank
  /-- The text is no expression; its longest complete beginning has `offset` bytes. -/
  | malformed (text : String) (offset : Nat)
  /-- The pattern holds an empty tuple, which every tuple begins with. -/
  | emptyTuple (text : String)
  deriving DecidableEq

namespace PatternError

/-- The wording of an error. -/
def message : PatternError → String
  | .blank => "invalid type pattern '': empty pattern"
  | .malformed text offset =>
    "invalid type pattern '" ++ text ++ "': ParseError \x7b input: " ++
      Text.quote text ++ ", offset: " ++
      toString offset ++ ", inner: ContextError \x7b context: [], cause: None \x7d \x7d"
  | .emptyTuple text =>
    "invalid type pattern '" ++ text ++ "': empty tuple matches every composite type"

end PatternError

namespace TypeExpr

/-- Read a type from tuple notation; blanks at both ends are ignored. -/
def parse (text : String) : Except PatternError TypeExpr :=
  let cs := Text.trimChars text.toList
  if cs = [] then .error .blank
  else match ofChars? cs with
    | some e => .ok e
    | none => .error (.malformed (String.ofList cs) (Reading.start.reach 0 0 cs))

/-- Read a pattern: a type without empty tuples. -/
def parsePattern (text : String) : Except PatternError TypeExpr := do
  let e ← parse text
  if e.hasEmptyTuple then throw (.emptyTuple (Text.trim text))
  return e

end TypeExpr

end TypeSieve
