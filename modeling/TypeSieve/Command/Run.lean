import TypeSieve.Command.Response
import TypeSieve.Config.Resolve
import TypeSieve.Filter.Log
import TypeSieve.Filter.Pass
import TypeSieve.Model.Encode

/-!
# Running commands

Filtering resolves the configuration, reads the model, filters it, and writes it where it is asked
to; writing back in place is left out when nothing was removed. Explaining a match reads nothing.
-/

namespace TypeSieve.Command

/-- Where a filtered model goes. -/
inductive Target where
  | nowhere
  /-- Over the model that was read. -/
  | inPlace
  | file (path : String)
  deriving DecidableEq

/-- What a filter run is asked to do. -/
structure FilterOptions where
  /-- The directory that other paths are seen from. -/
  directory : String
  model : String
  target : Target
  overrides : Overrides
  deriving DecidableEq

/-- A finished filter run: what it answers and what happened on the way. -/
structure FilterRun where
  response : FilterResponse
  log : List LogEvent
  deriving DecidableEq

/-- Where a run writes, given what it removed. -/
def FilterOptions.destination (options : FilterOptions) (report : Report) : Option String :=
  match options.target with
  | .nowhere => none
  | .inPlace => if report.isEmpty then none else some (Path.join options.directory options.model)
  | .file path => some (Path.join options.directory path)

variable {m : Type → Type} [Monad m]

/-- The model in a file. -/
def loadModel (disk : Disk m) (path : String) : ExceptT Failure m Environment := do
  let text ← Config.readText disk path
  ExceptT.mk (pure ((Environment.parse text).mapError (.model path)))

/-- Write a model to a file. -/
def writeModel (disk : Disk m) (path : String) (env : Environment) : ExceptT Failure m Unit :=
  ExceptT.mk do return (← disk.write path env.text).mapError (.write path)

/-- Filter a model with the given unwanted types. -/
def filterWith (disk : Disk m) (options : FilterOptions) (skips : Sourced SkipTypes) :
    ExceptT Failure m FilterRun := do
  let env ← loadModel disk (Path.join options.directory options.model)
  let f := Filter.ofSkips skips.value
  let written := options.destination (f.report env)
  match written with
  | none => pure ()
  | some path => writeModel disk path (f.apply env)
  return ⟨⟨skips, f.report env, written⟩, f.events env⟩

/-- Resolve the configuration and filter a model with it. -/
def filter (disk : Disk m) (options : FilterOptions) (fromEnv : Option String) :
    ExceptT Failure m FilterRun := do
  let resolved ← Config.resolve disk options.directory options.overrides fromEnv
  filterWith disk options resolved.skipTypes

/-- Explain how a pattern treats a type. -/
def explain (pattern candidate : String) : Except Failure MatchResponse := do
  let p ← (TypeExpr.parsePattern pattern).mapError .pattern
  let c ← (TypeExpr.parse candidate).mapError .pattern
  return ⟨p.render, c.render, Matcher.exact p c, Matcher.anywhere Matcher.exact p c,
    c.flatten.map TypeExpr.render⟩

end TypeSieve.Command
