import TypeSieve.Toml.Literal
import TypeSieve.Toml.Scalar
import TypeSieve.Toml.Tree

/-!
# Documents

A document is a sequence of lines: a key with its value, a header that opens a table or another
table of an array, or a comment. A text that is no document has no value; where it fails is not
told. Arrays and inline tables nest at most 79 deep, and a path has at most 79 keys.
-/

namespace TypeSieve.Toml

/-- How deep arrays and inline tables nest, and how long a path of keys is, at most. -/
def nestingLimit : Nat := 79

/-- A character of a bare key. -/
def isKeyChar (c : Char) : Bool :=
  Text.isDigit c || (decide ('a' ≤ c) && decide (c ≤ 'z')) ||
    (decide ('A' ≤ c) && decide (c ≤ 'Z')) || c == '_' || c == '-'

/-- Read a key: bare characters or a text of one line. -/
def readKey : Reader String := do
  match ← Reader.peek with
  | some '"' => do
    Reader.expect '"'
    readShort '"'
  | some '\'' => do
    Reader.expect '\''
    readShort '\''
  | _ => do
    let key ← Reader.run isKeyChar
    guard (key ≠ [])
    return String.ofList key

/-- Read a path of keys with dots between them and spaces around them: the keys before the last, and
the last. -/
def readPath : Reader (List String × String) := do
  let (before, key) ← Reader.loop (fun (read : List String) => do
    skipSpaces
    let key ← readKey
    skipSpaces
    if ← Reader.accept '.' then return .inl (key :: read)
    else return .inr (read, key)) []
  guard (before.length < nestingLimit)
  return (before.reverse, key)

/-- Read the items of an array behind its bracket. A comma may stand behind the last item. -/
def readItems (item : Reader Value) : Reader (List Value) :=
  Reader.loop (fun (read : List Value) => do
    skipGap
    if ← Reader.accept ']' then return .inr read.reverse
    let v ← item
    skipGap
    if ← Reader.accept ',' then return .inl (v :: read)
    Reader.expect ']'
    return .inr (v :: read).reverse) []

/-- Read a path and the value behind its equals sign. -/
def readPair (item : Reader Value) : Reader ((List String × String) × Value) := do
  let path ← readPath
  Reader.expect '='
  skipSpaces
  return (path, ← item)

/-- Read the entries of an inline table behind its brace, all on one line. -/
def readEntries (item : Reader Value) : Reader Tree := do
  skipSpaces
  if ← Reader.accept '\x7d' then return .root
  Reader.loop (fun tree => do
    let ((path, key), v) ← readPair item
    let tree ← tree.addAt path key v
    skipSpaces
    if ← Reader.accept ',' then return .inl tree
    Reader.expect '\x7d'
    return .inr tree) Tree.root

/-- Read a value whose arrays and inline tables nest at most `depth` deep. -/
def readValue (depth : Nat) : Reader Value := fun cs =>
  match depth, cs with
  | inner + 1, '[' :: rest => (Value.array <$> readItems (readValue inner)) rest
  | inner + 1, '\x7b' :: rest => (Tree.toValue <$> readEntries (readValue inner)) rest
  | _, '"' :: rest => (Value.text <$> readText '"') rest
  | _, '\'' :: rest => (Value.text <$> readText '\'') rest
  | _, _ => readScalar cs

/-- A document that is being read: its tree, and the path of the table that was opened last. -/
structure Assembly where
  tree : Tree
  opened : List String

namespace Assembly

/-- A document without lines. -/
def empty : Assembly := ⟨.root, []⟩

/-- Open a table, by its path, that a header writes or adds. -/
def openTable (change : String → Tree → Option Tree) (before : List String) (key : String)
    (a : Assembly) : Option Assembly :=
  (a.tree.descend .implied (change key) before).map fun tree => ⟨tree, before ++ [key]⟩

/-- Add a value to the open table. -/
def add (path : List String) (key : String) (v : Value) (a : Assembly) : Option Assembly :=
  (a.tree.descend .implied (Tree.addAt path key v) a.opened).map fun tree => { a with tree }

end Assembly

/-- Read a header behind its bracket. -/
def readHeader (a : Assembly) : Reader Assembly := do
  let many ← Reader.accept '['
  let (before, key) ← readPath
  Reader.expect ']'
  if many then Reader.expect ']'
  a.openTable (if many then Tree.append else Tree.declare) before key

/-- Read one line, or find the end. -/
def readStatement (a : Assembly) : Reader (Assembly ⊕ Value) := do
  skipSpaces
  match ← Reader.peek with
  | none => return .inr a.tree.toValue
  | some '#' | some '\n' | some '\r' => do
    endLine
    return .inl a
  | some '[' => do
    Reader.expect '['
    let a ← readHeader a
    endLine
    return .inl a
  | some _ => do
    let ((path, key), v) ← readPair (readValue nestingLimit)
    let a ← a.add path key v
    endLine
    return .inl a

/-- Read the characters of a document, behind a byte order mark if there is one. -/
def ofChars? (cs : List Char) : Option Value :=
  let cs := if cs.head? = some '\ufeff' then cs.tail else cs
  (Reader.loop readStatement Assembly.empty).complete? cs

/-- Read a document. -/
def parse? (text : String) : Option Value := ofChars? text.toList

end TypeSieve.Toml
