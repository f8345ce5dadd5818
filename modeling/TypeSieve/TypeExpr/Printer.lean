import TypeSieve.TypeExpr.Basic
import TypeSieve.Text.Blank
import TypeSieve.Text.Quoted

/-!
# Tuple notation of types

Types are shown as nested tuples. A name that the bare notation cannot hold is quoted, and a tuple
of one item keeps a comma behind it.
-/

namespace TypeSieve.TypeExpr

/-- A character that ends a bare name. -/
def isDelimiter (c : Char) : Bool :=
  c == '(' || c == ')' || c == ',' || c == '"' || c == '\''

/-- A character of bare names. -/
def isBare (c : Char) : Bool := !Text.isBlank c && !isDelimiter c

/-- The name is shown between quotes: it is empty, made of ASCII digits only, or holds a character
that no bare name has. -/
def needsQuotes (name : List Char) : Bool := name.all Text.isDigit || name.any fun c => !isBare c

/-- The notation of a name. -/
def leafChars (name : List Char) : List Char :=
  if needsQuotes name then Text.quoteChars name else name

mutual

/-- The notation of a type. -/
def renderChars : TypeExpr → List Char
  | .leaf name => leafChars name.toList
  | .literal text => text.toList
  | .tuple [] => ['(', ')']
  | .tuple [item] => '(' :: renderChars item ++ [',', ')']
  | .tuple (item :: next :: rest) => '(' :: renderChars item ++ renderRest (next :: rest) ++ [')']

/-- The notation of the further items of a tuple, each behind a comma and a space. -/
def renderRest : List TypeExpr → List Char
  | [] => []
  | item :: rest => ',' :: ' ' :: renderChars item ++ renderRest rest

end

/-- The notation of a type. -/
def render (e : TypeExpr) : String := String.ofList (renderChars e)

end TypeSieve.TypeExpr
