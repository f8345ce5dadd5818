import TypeSieve.Json.Numeral

/-!
# JSON lexemes

Splitting a text into punctuation, words, numerals and string literals. The scanner is a fold of
one step over the characters: it stands between lexemes, inside a string literal, or inside a run
of the characters that words and numerals are made of. A run or a literal is examined as a whole
when it ends.
-/

namespace TypeSieve.Json

/-- A part of a string literal: a character, or a code unit written as `\u` and four digits. -/
inductive Piece where
  | char (c : Char)
  | unit (code : Nat)
  deriving DecidableEq

/-- The parts that a text is made of. -/
inductive Lexeme where
  | openArray
  | closeArray
  | openObject
  | closeObject
  | comma
  | colon
  | null
  | bool (value : Bool)
  | numeral (n : Numeral)
  | text (pieces : List Piece)
  deriving DecidableEq

/-- The character that a short escape stands for. -/
def shortEscape? : Char → Option Char
  | '"' => some '"'
  | '\\' => some '\\'
  | '/' => some '/'
  | 'b' => some '\x08'
  | 'f' => some '\x0c'
  | 'n' => some '\n'
  | 'r' => some '\r'
  | 't' => some '\t'
  | _ => none

/-- Read the characters between the quotes of a string literal. -/
def readPieces : List Char → Option (List Piece)
  | [] => some []
  | '\\' :: 'u' :: a :: b :: c :: d :: rest => do
    let code ← Text.valueInBase? 16 [a, b, c, d]
    return .unit code :: (← readPieces rest)
  | '\\' :: e :: rest => do
    let c ← shortEscape? e
    return .char c :: (← readPieces rest)
  | c :: rest => do
    if c = '\\' ∨ c < ' ' then none
    return .char c :: (← readPieces rest)

/-- The word or numeral that a run of characters is. -/
def readRun (run : List Char) : Option Lexeme :=
  if run = ['n', 'u', 'l', 'l'] then some .null
  else if run = ['t', 'r', 'u', 'e'] then some (.bool true)
  else if run = ['f', 'a', 'l', 's', 'e'] then some (.bool false)
  else (Numeral.ofChars? run).map .numeral

/-- A character of words and numerals. -/
def isRunChar (c : Char) : Bool :=
  Text.isDigit c || (decide ('a' ≤ c) && decide (c ≤ 'z')) || c == 'E' || c == '+' || c == '-' ||
    c == '.'

/-- A character between lexemes. -/
def isGap (c : Char) : Bool := c == ' ' || c == '\t' || c == '\n' || c == '\r'

/-- The lexeme that is one character. -/
def punctuation? : Char → Option Lexeme
  | '[' => some .openArray
  | ']' => some .closeArray
  | '\x7b' => some .openObject
  | '\x7d' => some .closeObject
  | ',' => some .comma
  | ':' => some .colon
  | _ => none

/-- Where the scanner stands; the characters of an unfinished lexeme come last first. -/
inductive ScanMode where
  | between
  | text (escaped : Bool) (read : List Char)
  | run (read : List Char)

/-- A scanner with the finished lexemes, last first. -/
structure Scan where
  done : List Lexeme
  mode : ScanMode

namespace Scan

/-- The scanner before the first character. -/
def start : Scan := ⟨[], .between⟩

/-- Take a character that does not continue a lexeme. -/
def enter (done : List Lexeme) (c : Char) : Option Scan :=
  if isGap c then some ⟨done, .between⟩
  else if c = '"' then some ⟨done, .text false []⟩
  else if isRunChar c then some ⟨done, .run [c]⟩
  else (punctuation? c).map fun lexeme => ⟨lexeme :: done, .between⟩

/-- Take one character. -/
def step (s : Scan) (c : Char) : Option Scan :=
  match s.mode with
  | .between => enter s.done c
  | .text true read => some ⟨s.done, .text false (c :: read)⟩
  | .text false read =>
    if c = '"' then (readPieces read.reverse).map fun pieces => ⟨.text pieces :: s.done, .between⟩
    else some ⟨s.done, .text (c == '\\') (c :: read)⟩
  | .run read =>
    if isRunChar c then some ⟨s.done, .run (c :: read)⟩
    else (readRun read.reverse).bind fun lexeme => enter (lexeme :: s.done) c

/-- The lexemes in order, once the text has ended. -/
def finish (s : Scan) : Option (List Lexeme) :=
  match s.mode with
  | .between => some s.done.reverse
  | .text _ _ => none
  | .run read => (readRun read.reverse).map fun lexeme => (lexeme :: s.done).reverse

end Scan

/-- The lexemes of a text. -/
def lexemes (cs : List Char) : Option (List Lexeme) :=
  (cs.foldlM Scan.step Scan.start).bind Scan.finish

end TypeSieve.Json
