/-!
# Values and their sources

A configured value remembers where it came from. Of two values the one from the higher source
stands, of two from the same source the later.
-/

namespace TypeSieve

/-- Where a configured value comes from, in ascending precedence. -/
inductive Source where
  | builtIn
  | project
  | environment
  | flag
  deriving DecidableEq

namespace Source

/-- The precedence of a source. -/
def rank : Source → Nat
  | .builtIn => 0
  | .project => 1
  | .environment => 2
  | .flag => 3

/-- The name of a source in responses. -/
def name : Source → String
  | .builtIn => "default"
  | .project => "project_config"
  | .environment => "env_var"
  | .flag => "cli_flag"

end Source

/-- A configured value with its source. -/
structure Sourced (α : Type) where
  value : α
  source : Source
  deriving DecidableEq

namespace Sourced

/-- The value that stands when another is given later. -/
def merge {α : Type} (earlier later : Sourced α) : Sourced α :=
  if earlier.source.rank ≤ later.source.rank then later else earlier

end Sourced

end TypeSieve
