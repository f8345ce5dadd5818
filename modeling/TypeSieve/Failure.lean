import TypeSieve.Files.Disk
import TypeSieve.Model.Decode
import TypeSieve.SkipTypes
import TypeSieve.TypeExpr.Parser

/-!
# Failures

Why a command fails, in what words, and with which exit code: 2 for what the caller wrote, 3 for
what a file holds, 4 for a file that cannot be written.
-/

namespace TypeSieve

/-- Why a command fails. -/
inductive Failure where
  /-- Patterns for all classes and patterns for single classes are given together. -/
  | mixedScopes
  /-- An entry for a single class lacks its class or its pattern. -/
  | malformedEntry (entry : String)
  | pattern (e : PatternError)
  /-- The configuration in a file has no meaning. -/
  | configuration (path : String) (e : SkipTypesError)
  /-- A file holds no configuration. -/
  | configurationSyntax (path : String)
  /-- A file holds no description model. -/
  | model (path : String) (e : ModelTextError)
  | read (path : String) (fault : Fault)
  | write (path : String) (fault : Fault)
  deriving DecidableEq

namespace Failure

/-- The exit code of a failure. -/
def code : Failure → Nat
  | .mixedScopes | .malformedEntry _ | .pattern _ => 2
  | .configuration _ _ | .configurationSyntax _ | .model _ _ | .read _ _ => 3
  | .write _ _ => 4

/-- The wording of a failure. -/
def message : Failure → String
  | .mixedScopes =>
    "invalid arguments: --skip and --skip-for cannot be combined: skip types are either global " ++
      "or per class"
  | .malformedEntry entry =>
    "invalid arguments: invalid --skip-for '" ++ entry ++
      "', expected '<Class>=<pattern>' (e.g., 'classA=float64')"
  | .pattern e => e.message
  | .configuration path e => "invalid configuration in " ++ path ++ ": " ++ e.message
  | .configurationSyntax path => "cannot parse configuration " ++ path
  | .model path .notJson => "cannot parse description model " ++ path
  | .model path (.invalid e) => "cannot parse description model " ++ path ++ ": " ++ e.message
  | .read path fault => "cannot read " ++ path ++ ": " ++ fault.message
  | .write path fault => "cannot write " ++ path ++ ": " ++ fault.message

end Failure

end TypeSieve
