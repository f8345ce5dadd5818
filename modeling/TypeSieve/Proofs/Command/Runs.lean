import TypeSieve.Command.Run
import TypeSieve.Proofs.Files.Disks

/-!
# Runs on file systems

What a filter run does to a file system that is a value: it reads the model, and if it succeeds it
has written the filtered model to its destination, or left the file system as it was if it has none.
-/

namespace TypeSieve.Command

/-- What a program gives on a file system, and the file system that it leaves. -/
def runOn {α : Type} (fs : FileSystem) (program : ExceptT Failure (StateM FileSystem) α) :
    Except Failure α × FileSystem := program.run.run fs

variable {α β : Type} {fs after : FileSystem}

/-- The second of two programs is run on what the first leaves, if that succeeds. -/
theorem runOn_bind (fs : FileSystem) (program : ExceptT Failure (StateM FileSystem) α)
    (next : α → ExceptT Failure (StateM FileSystem) β) :
    runOn fs (program >>= next) =
      match runOn fs program with
      | (.ok a, between) => runOn between (next a)
      | (.error e, between) => (.error e, between) := by
  rw [runOn, runOn, ExceptT.run_bind, StateT.run_bind]
  rcases program.run.run fs with ⟨_ | a, between⟩ <;> rfl

/-- Two programs one after the other succeed exactly when the first does and the second does on what
it leaves. -/
theorem runOn_bind_eq_ok_iff {program : ExceptT Failure (StateM FileSystem) α}
    {next : α → ExceptT Failure (StateM FileSystem) β} {result : β} :
    runOn fs (program >>= next) = (.ok result, after) ↔
      ∃ a between, runOn fs program = (.ok a, between) ∧
        runOn between (next a) = (.ok result, after) := by
  rw [runOn_bind]
  rcases runOn fs program with ⟨_ | a, between⟩ <;> simp

/-- A program that reads a result from nothing leaves the file system as it was. -/
theorem runOn_pure (result : Except Failure α) :
    runOn fs (ExceptT.mk (pure result)) = (result, fs) := rfl

/-- Reading a text leaves the file system as it was. -/
theorem runOn_readText (path : String) :
    runOn fs (Config.readText FileSystem.disk path) =
      ((fs.read path).mapError (.read path), fs) := rfl

/-- Loading a model succeeds exactly if the text of its file is read as the model, and leaves the
file system as it was. -/
theorem runOn_loadModel_eq_ok_iff {path : String} {env : Environment} :
    runOn fs (loadModel FileSystem.disk path) = (.ok env, after) ↔
      after = fs ∧ ∃ text, fs.read path = .ok text ∧ Environment.parse text = .ok env := by
  rw [loadModel, runOn_bind_eq_ok_iff]
  simp only [runOn_readText, runOn_pure, Prod.mk.injEq, mapError_eq_ok_iff]
  constructor
  · intro h
    obtain ⟨text, between, ⟨htext, rfl⟩, hparse, rfl⟩ := h
    exact ⟨rfl, text, htext, hparse⟩
  · intro h
    obtain ⟨rfl, text, htext, hparse⟩ := h
    exact ⟨text, after, ⟨htext, rfl⟩, hparse, rfl⟩

/-- Writing a model is writing its text, and a fault names the path. -/
theorem runOn_writeModel_eq (disk : Disk (StateM FileSystem)) (fs : FileSystem) (path : String)
    (env : Environment) : runOn fs (writeModel disk path env) =
      (((disk.write path env.text).run fs).1.mapError (.write path),
        ((disk.write path env.text).run fs).2) := rfl

/-- Writing a model succeeds exactly if its text is written. -/
theorem runOn_writeModel_eq_ok_iff {path : String} {env : Environment} :
    runOn fs (writeModel FileSystem.disk path env) = (.ok (), after) ↔
      fs.write path env.text = .ok after := by
  rw [runOn_writeModel_eq, FileSystem.run_write]
  cases fs.write path env.text <;> simp [Except.mapError]

/-- The finished run of a filter over a model. -/
def FilterRun.ofModel (options : FilterOptions) (skips : Sourced SkipTypes) (env : Environment) :
    FilterRun :=
  let f := Filter.ofSkips skips.value
  ⟨⟨skips, f.report env, options.destination (f.report env)⟩, f.events env⟩

/-- A file system that has a model written to its destination, or is left as it was if there is
none. -/
def Delivered (fs : FileSystem) (destination : Option String) (env : Environment)
    (after : FileSystem) : Prop :=
  match destination with
  | none => after = fs
  | some path => fs.write path env.text = .ok after

/-- Delivering a model succeeds exactly if it is written to its destination, if it has one. -/
theorem runOn_deliver_eq_ok_iff {destination : Option String} {env : Environment}
    {result given : α} :
    runOn fs (match destination with
      | none => pure result
      | some path => do
        writeModel FileSystem.disk path env
        pure result) = (.ok given, after) ↔
      given = result ∧ Delivered fs destination env after := by
  have hpure : ∀ between : FileSystem, runOn between (pure result) = (.ok given, after) ↔
      given = result ∧ after = between := by
    intro between
    change (Except.ok result, between) = (.ok given, after) ↔ _
    simp [eq_comm]
  cases destination with
  | none => exact hpure fs
  | some path =>
    dsimp only
    rw [runOn_bind_eq_ok_iff]
    constructor
    · intro h
      obtain ⟨⟨⟩, between, hwrite, hgiven⟩ := h
      obtain ⟨rfl, rfl⟩ := (hpure between).mp hgiven
      exact ⟨rfl, runOn_writeModel_eq_ok_iff.mp hwrite⟩
    · intro h
      obtain ⟨rfl, hwrite⟩ := h
      exact ⟨(), after, runOn_writeModel_eq_ok_iff.mpr hwrite, (hpure after).mpr ⟨rfl, rfl⟩⟩

/-- A filter run succeeds exactly if the text of the model is read as one and the filtered model is
delivered where the report sends it. -/
theorem runOn_filterWith_eq_ok_iff {options : FilterOptions} {skips : Sourced SkipTypes}
    {run : FilterRun} :
    runOn fs (filterWith FileSystem.disk options skips) = (.ok run, after) ↔
      ∃ text env, fs.read (Path.join options.directory options.model) = .ok text ∧
        Environment.parse text = .ok env ∧ run = .ofModel options skips env ∧
        Delivered fs run.response.written ((Filter.ofSkips skips.value).apply env) after := by
  rw [filterWith, runOn_bind_eq_ok_iff]
  constructor
  · intro h
    obtain ⟨env, between, hload, h⟩ := h
    obtain ⟨rfl, text, htext, hparse⟩ := runOn_loadModel_eq_ok_iff.mp hload
    obtain ⟨rfl, hdelivered⟩ := runOn_deliver_eq_ok_iff.mp h
    exact ⟨text, env, htext, hparse, rfl, hdelivered⟩
  · intro h
    obtain ⟨text, env, htext, hparse, rfl, hdelivered⟩ := h
    refine ⟨env, fs, runOn_loadModel_eq_ok_iff.mpr ⟨rfl, text, htext, hparse⟩, ?_⟩
    exact runOn_deliver_eq_ok_iff.mpr ⟨rfl, hdelivered⟩

end TypeSieve.Command
