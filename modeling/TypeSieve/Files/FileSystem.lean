import TypeSieve.Files.Disk
import TypeSieve.Files.Path

/-!
# File systems

A file system as a value: files with their bytes, and directories, by location. A path is followed
name by name from the top, each name in a directory that exists; paths and names have a greatest
length. Writing touches the one location that the path leads to.
-/

namespace TypeSieve

/-- A place in a file system: the names on the way from the top. -/
abbrev Location := List String

/-- What stands at a location. -/
inductive Entry where
  | file (content : ByteArray)
  | directory

namespace Entry

/-- The entry is a directory. -/
def isDirectory : Entry → Bool
  | .directory => true
  | .file _ => false

end Entry

/-- The entries of a file system; the top is a directory and not among them. -/
structure FileSystem where
  entries : List (Location × Entry)

namespace FileSystem

/-- What stands at a location. -/
def entry? (fs : FileSystem) (location : Location) : Option Entry :=
  if location = [] then some .directory else fs.entries.lookup location

/-- Put an entry at a location, in place of the one there. -/
def put (fs : FileSystem) (location : Location) (entry : Entry) : FileSystem :=
  ⟨(location, entry) :: fs.entries.filter fun other => other.1 ≠ location⟩

/-- Follow names from a location. A name is looked for in a directory, if it is not too long; an
empty name and a dot stay there, and two dots lead to the directory above. -/
def follow (fs : FileSystem) : Location → List String → Except Fault Location
  | location, [] => .ok location
  | location, name :: rest =>
    match fs.entry? location with
    | none => .error .notFound
    | some (.file _) => .error .notDirectory
    | some .directory =>
      if name = "" ∨ name = "." then follow fs location rest
      else if name = ".." then follow fs location.dropLast rest
      else if Path.nameLimit < name.utf8ByteSize then .error .nameTooLong
      else follow fs (location ++ [name]) rest

/-- Refuse a path that cannot be followed at all: an empty one, one with the character zero, or one
too long. -/
def checkPath (path : String) : Except Fault Unit :=
  if path = "" then .error .notFound
  else if path.toList.contains '\x00' then .error .zeroInPath
  else if Path.lengthLimit < path.utf8ByteSize then .error .nameTooLong
  else .ok ()

/-- What a path leads to. -/
def find (fs : FileSystem) (path : String) : Except Fault Entry := do
  checkPath path
  match fs.entry? (← fs.follow [] (Path.names path)) with
  | some entry => .ok entry
  | none => .error .notFound

/-- There is a file at a path. -/
def isFile (fs : FileSystem) (path : String) : Bool :=
  match fs.find path with
  | .ok (.file _) => true
  | _ => false

/-- The text of the file at a path. -/
def read (fs : FileSystem) (path : String) : Except Fault String := do
  match ← fs.find path with
  | .directory => .error .isDirectory
  | .file content =>
    match String.fromUTF8? content with
    | some text => .ok text
    | none => .error .notText

/-- The names of a path without the empty ones at its end, and whether there are such. -/
def splitTrailing (path : String) : List String × Bool :=
  let backward := (Path.names path).reverse
  ((backward.dropWhile (· == "")).reverse, backward.head? == some "")

/-- The location that a path leads a writer to: that of a file, or of none in a directory. A path
that ends in a slash means a directory, whether there is one or not: of its last name only the place
where it stands is looked at. -/
def target (fs : FileSystem) (path : String) : Except Fault Location := do
  checkPath path
  let (names, trailing) := splitTrailing path
  if trailing then
    let _ ← fs.follow [] (names.dropLast ++ [""])
    .error .isDirectory
  else
    let location ← fs.follow [] names
    if (fs.entry? location).any Entry.isDirectory then .error .isDirectory else .ok location

/-- Give the file at a path a text. -/
def write (fs : FileSystem) (path text : String) : Except Fault FileSystem :=
  (fs.target path).map fun location => fs.put location (.file text.toUTF8)

/-- The operations on a file system that is a value. -/
def disk : Disk (StateM FileSystem) where
  isFile path := do return (← get).isFile path
  read path := do return (← get).read path
  write path text := do
    match (← get).write path text with
    | .ok fs =>
      set fs
      return .ok ()
    | .error fault => return .error fault

end FileSystem

end TypeSieve
