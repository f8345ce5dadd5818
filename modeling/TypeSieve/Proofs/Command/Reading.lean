import TypeSieve.Proofs.Command.Runs

/-!
# Programs that only read

Resolving a configuration and loading a model read files and write none: however they end, the file
system is as it was, and none of their failures is one to write.
-/

namespace TypeSieve

namespace Command

variable {ε α β : Type}

/-- A result that is no failure to write. -/
def NoWriteFailure (result : Except Failure α) : Prop :=
  ∀ path fault, result ≠ .error (.write path fault)

/-- A success is no failure. -/
theorem noWriteFailure_ok (a : α) : NoWriteFailure (.ok a) := fun _ _ => nofun

/-- Two steps fail to write only if one of them does. -/
theorem NoWriteFailure.bind {result : Except Failure α} {next : α → Except Failure β}
    (h : NoWriteFailure result) (hnext : ∀ a, NoWriteFailure (next a)) :
    NoWriteFailure (result >>= next) := by
  cases result with
  | ok a => exact hnext a
  | error e =>
    intro path fault heq
    obtain rfl := Except.error.inj heq
    exact h path fault rfl

/-- Many steps fail to write only if one of them does. -/
theorem noWriteFailure_mapM {f : α → Except Failure β} (h : ∀ a, NoWriteFailure (f a))
    (xs : List α) : NoWriteFailure (xs.mapM f) := by
  induction xs with
  | nil => exact noWriteFailure_ok []
  | cons x rest ih =>
    rw [List.mapM_cons]
    exact (h x).bind fun y => ih.bind fun ys => noWriteFailure_ok (y :: ys)

/-- Failures of other kinds are no failures to write. -/
theorem noWriteFailure_mapError {f : ε → Failure} (hf : ∀ e path fault, f e ≠ .write path fault)
    (result : Except ε α) : NoWriteFailure (result.mapError f) := by
  cases result with
  | ok a => exact noWriteFailure_ok a
  | error e =>
    intro path fault heq
    exact hf e path fault (Except.error.inj heq)

/-- A program that only reads leaves every file system as it was and does not fail to write. -/
def Reads (program : ExceptT Failure (StateM FileSystem) α) : Prop :=
  ∀ fs, ∃ result, runOn fs program = (result, fs) ∧ NoWriteFailure result

/-- A program that reads nothing only reads. -/
theorem reads_mk {result : Except Failure α} (h : NoWriteFailure result) :
    Reads (ExceptT.mk (pure result)) := fun _ => ⟨result, rfl, h⟩

/-- A program that just succeeds only reads. -/
theorem reads_pure (a : α) : Reads (pure a) := reads_mk (noWriteFailure_ok a)

/-- Two programs that only read only read one after the other. -/
theorem Reads.bind {program : ExceptT Failure (StateM FileSystem) α}
    {next : α → ExceptT Failure (StateM FileSystem) β} (h : Reads program)
    (hnext : ∀ a, Reads (next a)) : Reads (program >>= next) := by
  intro fs
  obtain ⟨result, hrun, hresult⟩ := h fs
  rw [runOn_bind, hrun]
  cases result with
  | ok a => exact hnext a fs
  | error e =>
    refine ⟨.error e, rfl, fun path fault heq => ?_⟩
    obtain rfl := Except.error.inj heq
    exact hresult path fault rfl

/-- What may be wrong with flags is no failure to write. -/
theorem noWriteFailure_skipTypes? (o : Overrides) : NoWriteFailure o.skipTypes? := by
  have hpattern : ∀ text, NoWriteFailure (Overrides.readPattern text) := by
    refine fun text => noWriteFailure_mapError ?_ _
    exact fun _ _ _ => nofun
  have hsplit : ∀ entry, NoWriteFailure (Overrides.splitEntry entry) := by
    intro entry
    unfold Overrides.splitEntry
    dsimp only
    split
    · split
      · exact fun _ _ => nofun
      · exact noWriteFailure_ok _
    · exact fun _ _ => nofun
  have hentry : ∀ entry, NoWriteFailure (Overrides.readEntry entry) := fun entry =>
    (hsplit entry).bind fun parts => (hpattern parts.2).bind fun _ => noWriteFailure_ok _
  unfold Overrides.skipTypes?
  split
  · exact noWriteFailure_ok _
  · exact fun _ _ => nofun
  · exact (noWriteFailure_mapM hpattern _).bind fun _ => noWriteFailure_ok _
  · exact (noWriteFailure_mapM hentry _).bind fun _ => noWriteFailure_ok _

section Files

variable {disk : Disk (StateM FileSystem)} (hdisk : disk.Faithful)
include hdisk

/-- A text is read from its file, and the file system is as it was. -/
theorem runOn_readText_of_faithful (fs : FileSystem) (path : String) :
    ∃ result : Except Fault String,
      runOn fs (Config.readText disk path) = (result.mapError (.read path), fs) ∧
        ∀ text, result = .ok text → fs.read path = .ok text := by
  refine ⟨((disk.read path).run fs).1, ?_, fun text => hdisk.read_ok⟩
  have hrun : runOn fs (Config.readText disk path) =
      (((disk.read path).run fs).1.mapError (.read path), ((disk.read path).run fs).2) := rfl
  rw [hrun, hdisk.read]

/-- Reading a text only reads. -/
theorem reads_readText (path : String) : Reads (Config.readText disk path) := by
  intro fs
  obtain ⟨result, hrun, -⟩ := runOn_readText_of_faithful hdisk fs path
  refine ⟨_, hrun, noWriteFailure_mapError ?_ result⟩
  exact fun _ _ _ => nofun

/-- Loading a configuration only reads. -/
theorem reads_load (path : String) : Reads (Config.load disk path) := by
  refine (reads_readText hdisk path).bind fun text => reads_mk ?_
  unfold Config.skipTypesOf
  split
  · exact fun _ _ => nofun
  · refine noWriteFailure_mapError ?_ _
    exact fun _ _ _ => nofun

/-- Looking for the configuration only reads. -/
theorem reads_locate (directory : String) (o : Overrides) (fromEnv : Option String) :
    Reads (ExceptT.lift (Config.locate disk directory o fromEnv)) := by
  intro fs
  unfold Config.locate
  split
  · exact ⟨_, rfl, noWriteFailure_ok _⟩
  · exact ⟨_, rfl, noWriteFailure_ok _⟩
  · have hfile := hdisk.isFile fs (Path.join directory Config.projectFile)
    refine ⟨_, Prod.ext rfl hfile, noWriteFailure_ok _⟩

/-- Resolving a configuration only reads. -/
theorem reads_resolve (directory : String) (o : Overrides) (fromEnv : Option String) :
    Reads (Config.resolve disk directory o fromEnv) := by
  have hflags : ∀ next : Option SkipTypes → ExceptT Failure (StateM FileSystem) Config.Resolved,
      (∀ given, Reads (next given)) → Reads (ExceptT.mk (pure o.skipTypes?) >>= next) :=
    fun _ hnext => (reads_mk (noWriteFailure_skipTypes? o)).bind hnext
  refine (reads_locate hdisk directory o fromEnv).bind fun file => ?_
  cases file with
  | none =>
    refine (reads_pure _).bind fun configured => hflags _ fun given => ?_
    cases given with
    | none => exact reads_pure _
    | some skips => exact reads_pure _
  | some place =>
    refine (reads_load hdisk place.value).bind fun skips => (reads_pure _).bind fun configured => ?_
    refine hflags _ fun given => ?_
    cases given with
    | none => exact reads_pure _
    | some skips => exact reads_pure _

/-- Loading a model only reads. -/
theorem reads_loadModel (path : String) : Reads (loadModel disk path) := by
  refine (reads_readText hdisk path).bind fun text => reads_mk (noWriteFailure_mapError ?_ _)
  exact fun _ _ _ => nofun

/-- A model that is loaded is read from the text of its file. -/
theorem parse_of_runOn_loadModel {fs after : FileSystem} {path : String} {env : Environment}
    (h : runOn fs (loadModel disk path) = (.ok env, after)) :
    ∃ text, fs.read path = .ok text ∧ Environment.parse text = .ok env := by
  obtain ⟨text, between, hread, hparse⟩ := runOn_bind_eq_ok_iff.mp h
  obtain ⟨result, hrun, htext⟩ := runOn_readText_of_faithful hdisk fs path
  rw [hrun, Prod.mk.injEq, mapError_eq_ok_iff] at hread
  rw [runOn_pure, Prod.mk.injEq, mapError_eq_ok_iff] at hparse
  exact ⟨text, htext text hread.1, hparse.1⟩

end Files

end Command

end TypeSieve
