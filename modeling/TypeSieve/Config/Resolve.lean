import TypeSieve.Config.Document
import TypeSieve.Config.Flags
import TypeSieve.Config.Sourced
import TypeSieve.Files.Path

/-!
# Resolving a configuration

At most one file is read: the one that a flag names, else the one that the environment names, else
the project's own file if there is one. Flags stand above the file; that it can be read is needed
all the same.
-/

namespace TypeSieve.Config

/-- The configuration file of a project. -/
def projectFile : String := "typefilter.toml"

/-- The environment variable that names a configuration file. -/
def environmentVariable : String := "TYPEFILTER_CONFIG"

/-- The file at a path is JSON by its name, in letters of either case. -/
def isJsonPath (path : String) : Bool :=
  ((Path.extension? path).map fun extension => extension.map Char.toLower) == some "json"

/-- The unwanted types of a configuration with the given text. -/
def skipTypesOf (path text : String) : Except Failure SkipTypes :=
  match if isJsonPath path then jsonSetting? text else tomlSetting? text with
  | none => .error (.configurationSyntax path)
  | some setting => (SkipTypes.ofJson setting).mapError (.configuration path)

variable {m : Type → Type} [Monad m]

/-- The text of the file at a path. -/
def readText (disk : Disk m) (path : String) : ExceptT Failure m String :=
  ExceptT.mk do return (← disk.read path).mapError (.read path)

/-- The unwanted types of a configuration file. -/
def load (disk : Disk m) (path : String) : ExceptT Failure m SkipTypes := do
  let text ← readText disk path
  ExceptT.mk (pure (skipTypesOf path text))

/-- The configuration file to be read, if any. -/
def locate (disk : Disk m) (directory : String) (o : Overrides) (fromEnv : Option String) :
    m (Option (Sourced String)) :=
  match o.config, fromEnv with
  | some path, _ => return some ⟨Path.join directory path, .flag⟩
  | none, some path => return some ⟨Path.join directory path, .environment⟩
  | none, none => do
    let path := Path.join directory projectFile
    return if ← disk.isFile path then some ⟨path, .project⟩ else none

/-- The configuration that stands, and the file that was read for it. -/
structure Resolved where
  file : Option (Sourced String)
  skipTypes : Sourced SkipTypes
  deriving DecidableEq

/-- The configuration before anything is read. -/
def unconfigured : Sourced SkipTypes := ⟨.unset, .builtIn⟩

/-- Resolve the configuration from the file, then from flags. -/
def resolve (disk : Disk m) (directory : String) (o : Overrides) (fromEnv : Option String) :
    ExceptT Failure m Resolved := do
  let file ← ExceptT.lift (locate disk directory o fromEnv)
  let configured ← match file with
    | none => pure unconfigured
    | some place => do
      let skips ← load disk place.value
      pure (unconfigured.merge ⟨skips, place.source⟩)
  match ← ExceptT.mk (pure o.skipTypes?) with
  | none => return ⟨file, configured⟩
  | some skips => return ⟨file, configured.merge ⟨skips, .flag⟩⟩

end TypeSieve.Config
