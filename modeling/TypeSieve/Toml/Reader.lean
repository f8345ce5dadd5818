import TypeSieve.Text.Digit

/-!
# Readers

A reader takes a value from the front of a text and leaves the rest, or fails. Nesting is bounded
by an argument of the readers that nest; a repetition has a round for each character of the text
and one more, which is enough when every round that goes on takes a character.
-/

namespace TypeSieve.Toml

/-- Take a value from the front of a text. -/
abbrev Reader := StateT (List Char) Option

namespace Reader

/-- The next character, which stays in place. -/
def peek : Reader (Option Char) := fun cs => some (cs.head?, cs)

/-- Take the given character if it is the next. -/
def accept (c : Char) : Reader Bool := fun cs =>
  match cs with
  | [] => some (false, [])
  | d :: rest => if d = c then some (true, rest) else some (false, d :: rest)

/-- Take the given character. -/
def expect (c : Char) : Reader Unit := do guard (← accept c)

/-- Take the next character if it is of a class. -/
def oneOf? (p : Char → Bool) : Reader (Option Char) := fun cs =>
  match cs with
  | [] => some (none, [])
  | c :: rest => if p c then some (some c, rest) else some (none, c :: rest)

/-- Take the longest run of characters of a class. -/
def run (p : Char → Bool) : Reader (List Char) := fun cs => some (cs.takeWhile p, cs.dropWhile p)

/-- Take a number of characters of a class. -/
def exactly (count : Nat) (p : Char → Bool) : Reader (List Char) := fun cs =>
  let taken := cs.take count
  if taken.length = count ∧ taken.all p then some (taken, cs.drop count) else none

/-- Repeat a step, in a bounded number of rounds, until it gives a result. -/
def rounds {σ α : Type} (step : σ → Reader (σ ⊕ α)) : Nat → σ → Reader α
  | 0, _ => failure
  | count + 1, s => do
    match ← step s with
    | .inl next => rounds step count next
    | .inr result => return result

/-- Repeat a step until it gives a result; a round that goes on takes at least one character. -/
def loop {σ α : Type} (step : σ → Reader (σ ⊕ α)) (s : σ) : Reader α := fun cs =>
  rounds step (cs.length + 1) s cs

/-- Read a complete text. -/
def complete? {α : Type} (read : Reader α) (cs : List Char) : Option α :=
  match read cs with
  | some (value, []) => some value
  | _ => none

end Reader

/-- A space or a tab. -/
def isSpace (c : Char) : Bool := c == ' ' || c == '\t'

/-- A character that texts and comments may hold as it is: no control character but the tab. -/
def isPlain (c : Char) : Bool := c == '\t' || (decide (' ' ≤ c) && c != '\x7f')

/-- Skip spaces and tabs. -/
def skipSpaces : Reader Unit := do let _ ← Reader.run isSpace

/-- Take a line break: a line feed, alone or behind a carriage return. -/
def lineBreak : Reader Unit := fun cs =>
  match cs with
  | '\n' :: rest | '\r' :: '\n' :: rest => some ((), rest)
  | _ => none

/-- Skip a comment, if one begins here, up to the end of its line. -/
def skipComment : Reader Unit := do
  if ← Reader.accept '#' then
    let _ ← Reader.run isPlain

/-- Skip spaces, tabs and a comment, then take the line break; the last line may have none. -/
def endLine : Reader Unit := do
  skipSpaces
  skipComment
  if (← Reader.peek).isSome then lineBreak

/-- Skip spaces, tabs, comments and line breaks. -/
def skipGap : Reader Unit :=
  Reader.loop (fun _ => do
    skipSpaces
    match ← Reader.peek with
    | some '#' => do
      skipComment
      lineBreak
      return .inl ()
    | some '\n' | some '\r' => do
      lineBreak
      return .inl ()
    | _ => return .inr ()) ()

end TypeSieve.Toml
