import TypeSieve.Command.Arguments

/-!
# The program

Commands on the file system of the machine. The response goes to standard output, the log to
standard error.
-/

namespace TypeSieve.Command

/-- The number of an error of the machine, which may be given with the opposite sign. -/
def errorNumber (code : UInt32) : Nat := min code.toNat (0 - code).toNat

/-- The fault that an error of the machine stands for. -/
def faultOf (e : IO.Error) : Fault :=
  match e with
  | .noFileOrDirectory _ _ _ => .notFound
  | .inappropriateType _ code _ =>
    match errorNumber code with
    | 20 => .notDirectory
    | 21 => .isDirectory
    | _ => .other (toString e)
  | .invalidArgument _ code _ =>
    match errorNumber code with
    | 36 => .nameTooLong
    | _ => .other (toString e)
  | e => .other (toString e)

/-- The text of the file at a path of the machine. -/
def readFile (path : String) : IO (Except Fault String) := do
  try
    let content ← IO.FS.readBinFile path
    match String.fromUTF8? content with
    | some text => return .ok text
    | none => return .error .notText
  catch e => return .error (faultOf e)

/-- Give the file at a path of the machine a text. -/
def writeFile (path text : String) : IO (Except Fault Unit) := do
  try
    IO.FS.writeFile path text
    return .ok ()
  catch e => return .error (faultOf e)

/-- The file system of the machine. -/
def machine : Disk IO where
  isFile path := do
    match ← readFile path with
    | .error .notFound | .error .notDirectory | .error .isDirectory | .error .nameTooLong =>
      return false
    | _ => return true
  read := readFile
  write := writeFile

/-- Events of a level are told under a word for a log level. -/
def tells (word : String) : LogLevel → Bool
  | .trace => word == "trace"
  | .debug => word == "trace" || word == "debug"
  | .info => word == "trace" || word == "debug" || word == "info"

/-- The name of a level in a log. -/
def levelName : LogLevel → String
  | .trace => "TRACE"
  | .debug => "DEBUG"
  | .info => "INFO"

/-- A line of the log. -/
def logLine (format level message : String) : String :=
  if format = "json" then
    (Json.object [("level", .string level), ("message", .string message)]).compact
  else level ++ " " ++ message

/-- Run a task: its response and its log. -/
def perform (task : Task) : ExceptT Failure IO (Json × List LogEvent) := do
  match task with
  | .filter model target overrides => do
    let directory := toString (← IO.currentDir)
    let fromEnv ← IO.getEnv Config.environmentVariable
    let run ← filter machine ⟨directory, model, target, overrides⟩ fromEnv
    return (run.response.toJson, run.log)
  | .explain pattern candidate => do
    let response ← ExceptT.mk (pure (explain pattern candidate))
    return (response.toJson, [])

/-- How the program is called. -/
def usage : String :=
  "Usage: typefilter filter --model <MODEL> [--config <CONFIG>] [--skip <SKIP>]... " ++
    "[--skip-for <SKIP_FOR>]... [--output <OUTPUT> | --in-place]\n" ++
    "       typefilter match --pattern <PATTERN> --type <TYPE>\n"

end TypeSieve.Command

open TypeSieve TypeSieve.Command in
/-- Read the command line, run its task, print the response. -/
def main (arguments : List String) : IO UInt32 := do
  match Invocation.ofArguments arguments with
  | .error .shown =>
    IO.print usage
    return 0
  | .error .refused =>
    IO.eprint usage
    return 2
  | .ok invocation => do
    let format := invocation.format.getD "text"
    match ← (perform invocation.task).run with
    | .ok (response, log) =>
      for event in log do
        if tells (invocation.level.getD "warn") event.level then
          IO.eprintln (logLine format (levelName event.level) event.message)
      IO.print (responseText response)
      return 0
    | .error f =>
      IO.eprintln (logLine format "ERROR" f.message)
      IO.print (responseText f.toJson)
      return f.code.toUInt32
