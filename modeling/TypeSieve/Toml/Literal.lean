import TypeSieve.Toml.Reader

/-!
# Text literals

A text stands between double quotes, with escapes, or between single quotes, verbatim. Three quotes
of either kind enclose a text of several lines: a line break right behind the opening quotes does
not count, up to two quotes may stand before the closing ones, and between double quotes a backslash
at the end of a line skips to the next character that is neither space nor line break.
-/

namespace TypeSieve.Toml

/-- A character with a number that is one. -/
def charOfCode? (code : Nat) : Option Char :=
  if code.isValidChar then some (Char.ofNat code) else none

/-- Read the character that an escape stands for, behind its backslash. -/
def readEscape : Reader Char := do
  match ← Reader.oneOf? fun _ => true with
  | some 'b' => return '\x08'
  | some 't' => return '\t'
  | some 'n' => return '\n'
  | some 'f' => return '\x0c'
  | some 'r' => return '\r'
  | some '"' => return '"'
  | some '\\' => return '\\'
  | some 'u' => readCode 4
  | some 'U' => readCode 8
  | _ => failure
where
  /-- Read the hexadecimal digits of a character. -/
  readCode (count : Nat) : Reader Char := do
    let digits ← Reader.exactly count fun c => (Text.hexValue? c).isSome
    let code ← Text.valueInBase? 16 digits
    charOfCode? code

/-- Read the text behind its opening quote; what was read comes last first. -/
def readLine (quote : Char) (read : List Char) : Reader (List Char ⊕ String) := do
  match ← Reader.oneOf? fun _ => true with
  | none => failure
  | some c =>
    if c = quote then return .inr (String.ofList read.reverse)
    else if c = '\\' ∧ quote = '"' then return .inl ((← readEscape) :: read)
    else if isPlain c then return .inl (c :: read)
    else failure

/-- Skip spaces and line breaks. -/
def dropBreaks : List Char → List Char
  | '\r' :: '\n' :: rest => dropBreaks rest
  | c :: rest => if isSpace c ∨ c = '\n' then dropBreaks rest else c :: rest
  | [] => []

/-- A backslash before this ends its line. -/
def endsLine (cs : List Char) : Bool :=
  match cs.dropWhile isSpace with
  | '\n' :: _ | '\r' :: '\n' :: _ => true
  | _ => false

/-- Read the characters behind a backslash: those that it skips, or an escape. -/
def readContinuation (read : List Char) : Reader (List Char) := do
  let rest ← get
  if endsLine rest then
    set (dropBreaks rest)
    return read
  else return (← readEscape) :: read

/-- Take quotes up to a number of them. -/
def takeQuotes (quote : Char) : Nat → Reader Nat
  | 0 => return 0
  | limit + 1 => do
    if ← Reader.accept quote then return (← takeQuotes quote limit) + 1
    else return 0

/-- Read a part of a text of several lines: the closing quotes with those before them, fewer quotes,
a line break, an escape or a character. -/
def readLines (quote : Char) (read : List Char) : Reader (List Char ⊕ String) := do
  let quotes ← takeQuotes quote 5
  if 3 ≤ quotes then
    return .inr (String.ofList (List.replicate (quotes - 3) quote ++ read).reverse)
  else if 0 < quotes then return .inl (List.replicate quotes quote ++ read)
  else match ← Reader.peek with
    | none => failure
    | some c =>
      if c = '\n' ∨ c = '\r' then
        lineBreak
        return .inl ('\n' :: read)
      else
        let _ ← Reader.oneOf? fun _ => true
        if c = '\\' ∧ quote = '"' then return .inl (← readContinuation read)
        else if isPlain c then return .inl (c :: read)
        else failure

/-- Read a text of one line behind its opening quote. -/
def readShort (quote : Char) : Reader String := Reader.loop (readLine quote) []

/-- Read a text of several lines behind its opening quotes. -/
def readLong (quote : Char) : Reader String := do
  match ← Reader.peek with
  | some '\n' | some '\r' => lineBreak <|> pure ()
  | _ => pure ()
  Reader.loop (readLines quote) []

/-- Two quotes come next. -/
def twoFollow (quote : Char) : List Char → Bool
  | a :: b :: _ => a == quote && b == quote
  | _ => false

/-- Read a text behind its first quote. -/
def readText (quote : Char) : Reader String := do
  if twoFollow quote (← get) then
    let _ ← takeQuotes quote 2
    readLong quote
  else readShort quote

end TypeSieve.Toml
