import TypeSieve.Command.Run

/-!
# Command lines

A command line is read argument by argument. An option is `--name value` or `--name=value`; a value
of its own does not begin with a dash, unless it is nothing else. What an option is given is
examined when the next argument is read, so the first fault or request for help from the left
decides; what is missing or does not go together is found at the end. A command is entered
where the line gives its name, and its options follow it.
-/

namespace TypeSieve.Command

/-- What an option takes. -/
inductive OptionShape where
  | flag
  | text
  /-- A text that is not empty. -/
  | path
  /-- A text that may be given again. -/
  | texts
  | choice (words : List String)
  deriving DecidableEq

/-- An option with its name behind the two dashes. -/
structure OptionSpec where
  name : String
  shape : OptionShape
  deriving DecidableEq

/-- Where on a line options are read. -/
inductive Scope where
  | program
  | filter
  | explain
  deriving DecidableEq

/-- The names of commands. -/
def commandScope? : String → Option Scope
  | "filter" => some .filter
  | "match" => some .explain
  | _ => none

/-- The command that shows help about others. -/
def helpName : String := "help"

/-- The words for log levels. -/
def levelWords : List String := ["trace", "debug", "info", "warn", "error"]

/-- The words for log formats. -/
def formatWords : List String := ["text", "json"]

/-- The options that every scope has. -/
def sharedOptions : List OptionSpec :=
  [⟨"log-level", .choice levelWords⟩, ⟨"log-format", .choice formatWords⟩]

/-- The options of a scope. -/
def Scope.options : Scope → List OptionSpec
  | .program => sharedOptions
  | .filter => sharedOptions ++ [⟨"model", .path⟩, ⟨"config", .path⟩, ⟨"skip", .texts⟩,
      ⟨"skip-for", .texts⟩, ⟨"output", .path⟩, ⟨"in-place", .flag⟩]
  | .explain => sharedOptions ++ [⟨"pattern", .text⟩, ⟨"type", .text⟩]

/-- What ends a line early. -/
inductive Stop where
  /-- Help or the version is asked for. -/
  | shown
  /-- The line is not understood. -/
  | refused
  deriving DecidableEq

/-- An option that was read last, with its value if it was given one already. -/
structure Pending where
  option : OptionSpec
  value : Option String

/-- The options of a scope as far as they were read, last first. -/
structure Given where
  values : List (String × String)
  pending : Option Pending

/-- What is due on a line. -/
inductive Position where
  | options
  /-- The names of commands to show help about; the list of them may be ended. -/
  | topics (ended : Bool)
  /-- No argument may follow. -/
  | closed

/-- A line that is being read. -/
structure Line where
  scope : Scope
  given : Given
  /-- The options before the command. -/
  before : Option Given
  position : Position

namespace Given

/-- Nothing was read. -/
def empty : Given := ⟨[], none⟩

/-- A value that an option may take. -/
def accepts : OptionShape → String → Bool
  | .path, value => value != ""
  | .choice words, value => words.contains value
  | _, _ => true

/-- Record an option with its value. Only one shape may be given again. -/
def record (g : Given) (o : OptionSpec) (value : String) : Except Stop Given :=
  if !accepts o.shape value then .error .refused
  else if o.shape ≠ .texts ∧ g.values.any fun entry => entry.1 == o.name then .error .refused
  else .ok ⟨(o.name, value) :: g.values, none⟩

/-- Examine the option that was read last. -/
def settle (g : Given) : Except Stop Given :=
  match g.pending with
  | none => .ok g
  | some ⟨o, some value⟩ => record g o value
  | some ⟨_, none⟩ => .error .refused

/-- The option that was read last still needs a value. -/
def isAwaiting (g : Given) : Bool :=
  match g.pending with
  | some ⟨_, none⟩ => true
  | _ => false

/-- Give the option that was read last a value. -/
def hold (g : Given) (value : String) : Except Stop Given :=
  match g.pending with
  | some ⟨o, none⟩ => .ok { g with pending := some ⟨o, some value⟩ }
  | _ => .error .refused

/-- The values of an option in order. -/
def all (g : Given) (name : String) : List String :=
  (g.values.reverse.filter fun entry => entry.1 == name).map (·.2)

/-- The value of an option. -/
def one? (g : Given) (name : String) : Option String := (g.all name).head?

/-- The option was given. -/
def has (g : Given) (name : String) : Bool := (g.one? name).isSome

end Given

namespace Line

/-- A line before its first argument. -/
def start : Line := ⟨.program, .empty, none, .options⟩

/-- Examine the last option, then stop to show something. -/
def display (line : Line) : Except Stop Line := do
  let _ ← line.given.settle
  throw .shown

/-- Take an option with the value behind its equals sign, if there is one. -/
def takeOption (line : Line) (name : String) (value : Option String) : Except Stop Line :=
  match line.scope.options.find? fun o => o.name == name with
  | some o => do
    let given ← line.given.settle
    match o.shape, value with
    | .flag, none => return { line with given := ← given.record o "" }
    | .flag, some _ => throw .refused
    | _, some value => return { line with given := ← given.record o value }
    | _, none => return { line with given := { given with pending := some ⟨o, none⟩ } }
  | none =>
    if value.isNone ∧ (name = helpName ∨ (name = "version" ∧ line.scope = .program)) then
      line.display
    else throw .refused

/-- Take an argument where options are read. -/
def takeArgument (line : Line) (argument : String) : Except Stop Line :=
  match argument.toList with
  | ['-', '-'] => return { line with position := .closed }
  | '-' :: '-' :: rest =>
    let name := String.ofList (rest.takeWhile (· ≠ '='))
    match rest.dropWhile (· ≠ '=') with
    | _ :: value => line.takeOption name (some (String.ofList value))
    | [] => line.takeOption name none
  | '-' :: c :: _ =>
    if c = 'h' ∨ (c = 'V' ∧ line.scope = .program) then line.display else throw .refused
  | _ => do return { line with given := ← line.given.hold argument }

/-- Enter the command that an argument names, if it does. -/
def enter? (line : Line) (argument : String) : Option Line :=
  if line.scope ≠ .program ∨ line.given.isAwaiting then none
  else if argument = helpName then some { line with position := .topics false }
  else (commandScope? argument).map fun scope => ⟨scope, .empty, some line.given, .options⟩

/-- Take the name of a command to show help about. -/
def takeTopic (line : Line) (ended : Bool) (argument : String) : Except Stop Line :=
  if !ended ∧ ((commandScope? argument).isSome ∨ argument = helpName) then
    return { line with position := .topics true }
  else throw .refused

/-- Take one argument. -/
def step (line : Line) (argument : String) : Except Stop Line :=
  match line.position with
  | .closed => throw .refused
  | .topics ended => line.takeTopic ended argument
  | .options =>
    match line.enter? argument with
    | some entered => return entered
    | none => line.takeArgument argument

end Line

/-- A command with everything it needs. -/
inductive Task where
  | filter (model : String) (target : Target) (overrides : Overrides)
  | explain (pattern candidate : String)
  deriving DecidableEq

/-- A task with the words for log level and format, if they were given. -/
structure Invocation where
  task : Task
  level : Option String
  format : Option String
  deriving DecidableEq

/-- The filter task of the given options. -/
def filterTask (g : Given) : Except Stop Task := do
  let some model := g.one? "model" | throw .refused
  if g.has "skip" && g.has "skip-for" then throw .refused
  let target ← match g.one? "output", g.has "in-place" with
    | some _, true => throw .refused
    | some path, false => pure (.file path)
    | none, true => pure .inPlace
    | none, false => pure .nowhere
  return .filter model target ⟨g.one? "config", g.all "skip", g.all "skip-for"⟩

/-- The explanation task of the given options. -/
def explainTask (g : Given) : Except Stop Task :=
  match g.one? "pattern", g.one? "type" with
  | some pattern, some candidate => return .explain pattern candidate
  | _, _ => throw .refused

namespace Line

/-- What a complete line asks for. The command is examined before the options in front of it. -/
def finish (line : Line) : Except Stop Invocation := do
  if let .topics _ := line.position then throw .shown
  let given ← line.given.settle
  let task ← match line.scope with
    | .program => throw .refused
    | .filter => filterTask given
    | .explain => explainTask given
  let before ← (line.before.getD .empty).settle
  return ⟨task, (given.one? "log-level").or (before.one? "log-level"),
    (given.one? "log-format").or (before.one? "log-format")⟩

end Line

namespace Invocation

/-- Read a command line without the name of the program. -/
def ofArguments (arguments : List String) : Except Stop Invocation := do
  (← arguments.foldlM Line.step Line.start).finish

end Invocation

namespace Stop

/-- The exit code of a line that ends early. -/
def code : Stop → Nat
  | .shown => 0
  | .refused => 2

end Stop

end TypeSieve.Command
