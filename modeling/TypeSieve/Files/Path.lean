/-!
# Paths

A path is a text whose names are separated by slashes. Joining writes one path behind another and
resolves nothing, so the result shows how it was put together.
-/

namespace TypeSieve.Path

/-- The parts of a list of characters between slashes. -/
def splitNames : List Char → List (List Char)
  | [] => [[]]
  | c :: rest =>
    if c = '/' then [] :: splitNames rest
    else match splitNames rest with
      | [] => [[c]]
      | name :: names => (c :: name) :: names

/-- The names of a path in order; a name is empty where a slash follows a slash or stands at an
end. -/
def names (path : String) : List String := (splitNames path.toList).map String.ofList

/-- The most bytes that a name of a path may have. -/
def nameLimit : Nat := 255

/-- The most bytes that a whole path may have. -/
def lengthLimit : Nat := 4095

/-- A path that does not depend on a directory. -/
def isAbsolute (path : String) : Bool := path.toList.head? == some '/'

/-- A path seen from a directory: an absolute path stays as it is, any other is written behind the
directory and a slash. -/
def join (directory path : String) : String :=
  if isAbsolute path then path
  else if directory = "" ∨ directory.toList.getLast? = some '/' then directory ++ path
  else directory ++ "/" ++ path

/-- The last name of a path, unless that leads upwards. -/
def lastName? (path : String) : Option String :=
  match ((names path).filter fun name => name ≠ "" ∧ name ≠ ".").getLast? with
  | some ".." => none
  | name => name

/-- What stands behind the last dot of a path's last name. A dot in front of the name does not
count. -/
def extension? (path : String) : Option String := do
  let name ← lastName? path
  let backward := name.toList.reverse
  let stem := (backward.dropWhile (· ≠ '.')).drop 1
  if stem = [] then none else some (String.ofList (backward.takeWhile (· ≠ '.')).reverse)

end TypeSieve.Path
