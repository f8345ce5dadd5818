import TypeSieve.Toml.Value

/-!
# Tables under construction

A document is assembled in a tree of tables. A table is written by a header or between braces, or
it is implied: by the path of a header, or by a dotted key. An implied table may get its own
header once; a dotted key may add only to tables that dotted keys implied, though it may pass
through those that headers implied. No key is given twice.
-/

namespace TypeSieve.Toml

/-- How a table came to be. -/
inductive TableOrigin where
  /-- Written by a header or between braces. -/
  | declared
  /-- Implied by the path of a header. -/
  | implied
  /-- Implied by a dotted key. -/
  | dotted
  deriving DecidableEq

/-- A value, a table, or an array of tables; the last table of an array comes first. -/
inductive Tree where
  | value (v : Value)
  | table (origin : TableOrigin) (entries : List (String × Tree))
  | tables (items : List Tree)

/-- Set the value of a key: in its place, or behind the other entries. -/
def setEntry {α : Type} (key : String) (value : α) : List (String × α) → List (String × α)
  | [] => [(key, value)]
  | (k, v) :: rest => if k = key then (k, value) :: rest else (k, v) :: setEntry key value rest

namespace Tree

/-- The table of a document or between braces, without entries. -/
def root : Tree := .table .declared []

/-- The tree is a table that was written as one. -/
def isDeclared : Tree → Bool
  | .table .declared _ => true
  | _ => false

/-- Change a tree; of an array of tables, the last table. -/
def changeLast (change : Tree → Option Tree) : Tree → Option Tree
  | .tables (last :: earlier) => (change last).map fun last => .tables (last :: earlier)
  | .tables [] => none
  | tree => change tree

/-- Change the table that a path leads to. Missing tables on the way are implied, by a dotted key or
by a header; a dotted key does not enter a table that was written as one. -/
def descend (origin : TableOrigin) (change : Tree → Option Tree) : List String → Tree → Option Tree
  | [], tree => change tree
  | key :: path, .table above entries =>
    let inner := (findEntry key entries).getD (.table origin [])
    if origin = .dotted ∧ inner.isDeclared then none
    else (inner.changeLast (descend origin change path)).map fun inner =>
      .table above (setEntry key inner entries)
  | _ :: _, _ => none

/-- Add a value under a new key, to a table of the given origin if one is asked for. -/
def addValue (origin : Option TableOrigin) (key : String) (v : Value) : Tree → Option Tree
  | .table found entries =>
    if (findEntry key entries).isSome then none
    else match origin with
      | none => some (.table found (setEntry key (.value v) entries))
      | some asked =>
        if found = asked then some (.table found (setEntry key (.value v) entries)) else none
  | _ => none

/-- Write a table under a key that is new or whose table a header implied. -/
def declare (key : String) : Tree → Option Tree
  | .table found entries =>
    match findEntry key entries with
    | none => some (.table found (setEntry key root entries))
    | some (.table .implied inner) =>
      some (.table found (setEntry key (.table .declared inner) entries))
    | some _ => none
  | _ => none

/-- Add a table to the array of tables under a key. -/
def append (key : String) : Tree → Option Tree
  | .table found entries =>
    match findEntry key entries with
    | none => some (.table found (setEntry key (.tables [root]) entries))
    | some (.tables items) => some (.table found (setEntry key (.tables (root :: items)) entries))
    | some _ => none
  | _ => none

/-- Add a value under a path of keys. -/
def addAt (path : List String) (key : String) (v : Value) (tree : Tree) : Option Tree :=
  descend .dotted (addValue (if path = [] then none else some .dotted) key v) path tree

mutual

/-- The value of a tree. -/
def toValue : Tree → Value
  | .value v => v
  | .table _ entries => .table (entryValues entries)
  | .tables items => .array (itemValues items).reverse

/-- The values of the entries of a table. -/
def entryValues : List (String × Tree) → List (String × Value)
  | [] => []
  | (key, tree) :: rest => (key, toValue tree) :: entryValues rest

/-- The values of the tables of an array. -/
def itemValues : List Tree → List Value
  | [] => []
  | item :: rest => toValue item :: itemValues rest

end

end Tree

end TypeSieve.Toml
