/-!
# Disks

What a command may do with files: ask whether one is there, read one, write one. A disk gives these
operations in a monad of its own, so that a command runs alike on a file system that is a value and
on that of the machine.
-/

namespace TypeSieve

/-- Why a file cannot be read or written. -/
inductive Fault where
  | notFound
  | notDirectory
  | isDirectory
  | nameTooLong
  /-- The path holds the character zero, which no path may. -/
  | zeroInPath
  /-- The content is no UTF-8 text. -/
  | notText
  /-- A fault of the machine, in its own words. -/
  | other (message : String)
  deriving DecidableEq

namespace Fault

/-- The wording of a fault. -/
def message : Fault → String
  | .notFound => "No such file or directory (os error 2)"
  | .notDirectory => "Not a directory (os error 20)"
  | .isDirectory => "Is a directory (os error 21)"
  | .nameTooLong => "File name too long (os error 36)"
  | .zeroInPath => "file name contained an unexpected NUL byte"
  | .notText => "stream did not contain valid UTF-8"
  | .other message => message

end Fault

/-- The operations on files that commands use. -/
structure Disk (m : Type → Type) where
  /-- There is a file, and no directory, at a path. -/
  isFile : String → m Bool
  /-- The text of the file at a path. -/
  read : String → m (Except Fault String)
  /-- Give the file at a path a text, creating it if its directory exists. -/
  write : String → String → m (Except Fault Unit)

end TypeSieve
