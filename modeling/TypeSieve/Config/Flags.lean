import TypeSieve.Failure
import TypeSieve.Text.Blank

/-!
# Flags

The flags that override a configuration. Patterns in tuple notation are given for every class, or
entry by entry for one class each; an entry is a class name, an equals sign and a pattern.
-/

namespace TypeSieve

/-- What flags say about the configuration. -/
structure Overrides where
  config : Option String
  skip : List String
  skipFor : List String
  deriving DecidableEq

namespace Overrides

/-- The class name, without blanks around it, and the pattern of an entry; both have to be there. -/
def splitEntry (entry : String) : Except Failure (String × String) :=
  let className := entry.toList.takeWhile (· ≠ '=')
  match entry.toList.dropWhile (· ≠ '=') with
  | '=' :: pattern =>
    if className.all Text.isBlank || pattern.all Text.isBlank then .error (.malformedEntry entry)
    else .ok (String.ofList (Text.trimChars className), String.ofList pattern)
  | _ => .error (.malformedEntry entry)

/-- Read a pattern. -/
def readPattern (text : String) : Except Failure TypeExpr :=
  (TypeExpr.parsePattern text).mapError .pattern

/-- Read an entry: its form first, then its pattern. -/
def readEntry (entry : String) : Except Failure (String × TypeExpr) := do
  let (className, text) ← splitEntry entry
  return (className, ← readPattern text)

/-- Add a pattern behind those of a class. -/
def addPattern (lists : Dict (List TypeExpr)) (entry : String × TypeExpr) : Dict (List TypeExpr) :=
  lists.insert entry.1 ((lists.get? entry.1).getD [] ++ [entry.2])

/-- The unwanted types that flags give, if any do. -/
def skipTypes? (o : Overrides) : Except Failure (Option SkipTypes) :=
  match o.skip, o.skipFor with
  | [], [] => .ok none
  | _ :: _, _ :: _ => .error .mixedScopes
  | patterns, [] => do return some (.global (← patterns.mapM readPattern))
  | [], entries => do
    let read ← entries.mapM readEntry
    return some (.perClass (read.foldl addPattern .empty))

end Overrides

end TypeSieve
