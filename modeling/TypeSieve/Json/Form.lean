import TypeSieve.Json.Lexeme

/-!
# JSON syntax trees

The tree of a text with every numeral and literal as it is spelled and every member of an object
in text order. A tree exists for any text of the right grammar, however deep it nests and whatever
its numerals and escapes denote. The builder is a fold of one step over the lexemes, with the
unfinished arrays and objects as a stack.
-/

namespace TypeSieve.Json

/-- A syntax tree. -/
inductive Form where
  | null
  | bool (value : Bool)
  | numeral (n : Numeral)
  | text (pieces : List Piece)
  | array (items : List Form)
  | object (members : List (List Piece × Form))
  deriving Inhabited

/-- An unfinished array or object around the value being built; what it holds comes last first. -/
inductive Frame where
  | items (read : List Form)
  | members (read : List (List Piece × Form)) (key : List Piece)

/-- What the next lexeme has to be. -/
inductive Due where
  | value
  | firstItem
  | firstKey
  | key (read : List (List Piece × Form))
  | colon (read : List (List Piece × Form)) (key : List Piece)
  | after (built : Form)

/-- A builder inside its unfinished arrays and objects, innermost first. -/
structure Build where
  frames : List Frame
  due : Due

namespace Build

/-- The builder before the first lexeme. -/
def start : Build := ⟨[], .value⟩

/-- Take a lexeme that begins a value. -/
def begin (frames : List Frame) : Lexeme → Option Build
  | .null => some ⟨frames, .after .null⟩
  | .bool value => some ⟨frames, .after (.bool value)⟩
  | .numeral n => some ⟨frames, .after (.numeral n)⟩
  | .text pieces => some ⟨frames, .after (.text pieces)⟩
  | .openArray => some ⟨frames, .firstItem⟩
  | .openObject => some ⟨frames, .firstKey⟩
  | _ => none

/-- Take a lexeme behind a complete value. -/
def extend (built : Form) : List Frame → Lexeme → Option Build
  | .items read :: frames, .comma => some ⟨.items (built :: read) :: frames, .value⟩
  | .items read :: frames, .closeArray => some ⟨frames, .after (.array (built :: read).reverse)⟩
  | .members read key :: frames, .comma => some ⟨frames, .key ((key, built) :: read)⟩
  | .members read key :: frames, .closeObject =>
    some ⟨frames, .after (.object ((key, built) :: read).reverse)⟩
  | _, _ => none

/-- Take one lexeme. -/
def step (b : Build) (lexeme : Lexeme) : Option Build :=
  match b.due, lexeme with
  | .value, lexeme => begin b.frames lexeme
  | .firstItem, .closeArray => some ⟨b.frames, .after (.array [])⟩
  | .firstItem, lexeme => begin (.items [] :: b.frames) lexeme
  | .firstKey, .closeObject => some ⟨b.frames, .after (.object [])⟩
  | .firstKey, .text key => some ⟨b.frames, .colon [] key⟩
  | .key read, .text key => some ⟨b.frames, .colon read key⟩
  | .colon read key, .colon => some ⟨.members read key :: b.frames, .value⟩
  | .after built, lexeme => extend built b.frames lexeme
  | _, _ => none

/-- The tree, once the lexemes have ended. -/
def finish (b : Build) : Option Form :=
  match b.frames, b.due with
  | [], .after built => some built
  | _, _ => none

end Build

/-- The syntax tree of a text. -/
def Form.ofChars? (cs : List Char) : Option Form :=
  (lexemes cs).bind fun ls => (ls.foldlM Build.step Build.start).bind Build.finish

end TypeSieve.Json
