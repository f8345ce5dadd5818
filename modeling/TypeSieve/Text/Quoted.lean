import TypeSieve.Text.Printable

/-!
# Quoted texts

A text between double quotes with escapes for the quote, the backslash, the usual controls
and every character that does not show by itself. This is the form of leaf names that the
bare notation cannot hold, and of texts inside diagnostics.
-/

namespace TypeSieve.Text

/-- The digits of a number in lower-case hexadecimal. -/
def hexDigits (n : Nat) : List Char := Nat.toDigits 16 n

/-- The form of one character inside a quoted text. -/
def escapeChar (c : Char) : List Char :=
  if c = '\x00' then ['\\', '0']
  else if c = '\t' then ['\\', 't']
  else if c = '\r' then ['\\', 'r']
  else if c = '\n' then ['\\', 'n']
  else if c = '"' then ['\\', '"']
  else if c = '\\' then ['\\', '\\']
  else if isPrintable c then [c]
  else '\\' :: 'u' :: '\x7b' :: hexDigits c.toNat ++ ['\x7d']

/-- The text between double quotes, each character in its escaped form. -/
def quoteChars (cs : List Char) : List Char := '"' :: cs.flatMap escapeChar ++ ['"']

/-- The text between double quotes, each character in its escaped form. -/
def quote (text : String) : String := String.ofList (quoteChars text.toList)

end TypeSieve.Text
