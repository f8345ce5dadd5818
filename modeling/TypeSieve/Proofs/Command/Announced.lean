import TypeSieve.Proofs.Command.InPlace
import TypeSieve.Proofs.Command.Reading

/-!
# Files are touched as announced

A filter run changes no file unless it is to write one, and then only that one. What it reports is
what the pass over the model in its file removes, wherever the model goes. All of this holds on
every disk that works on a file system, whichever of its operations fail.
-/

namespace TypeSieve

namespace Command

/-- Where a run says that it has written, by its target and what was removed. -/
inductive Announced (options : FilterOptions) (report : Report) : Option String → Prop
  | nowhere (htarget : options.target = .nowhere) : Announced options report none
  | untouched (htarget : options.target = .inPlace) (hnone : report.removals = []) :
    Announced options report none
  | inPlace (htarget : options.target = .inPlace) (hsome : report.removals ≠ []) :
    Announced options report (some (Path.join options.directory options.model))
  | file {path : String} (htarget : options.target = .file path) :
    Announced options report (some (Path.join options.directory path))

/-- The model in the file of a run. -/
def ModelOf (fs : FileSystem) (options : FilterOptions) (env : Environment) : Prop :=
  ∃ text, fs.read (Path.join options.directory options.model) = .ok text ∧
    Environment.parse text = .ok env

/-- How a filter run with given unwanted types ends on a file system, and the file system that it
leaves. -/
inductive Ends (fs : FileSystem) (options : FilterOptions) (skips : Sourced SkipTypes) :
    Except Failure FilterRun × FileSystem → Prop
  /-- A failure of any kind but to write leaves the file system as it was. -/
  | failed {e : Failure} (hwrite : ∀ path fault, e ≠ .write path fault) :
      Ends fs options skips (.error e, fs)
  /-- A failure to write is one to write where the run was to write, and leaves all else as it
  was. -/
  | unwritten {env : Environment} {path : String} {fault : Fault} {after : FileSystem}
    (hmodel : ModelOf fs options env)
    (hpath : Announced options ((Filter.ofSkips skips.value).report env) (some path))
    (hrest : fs.SameBut path after) : Ends fs options skips (.error (.write path fault), after)
  /-- A run that announces no file has reported on the model and leaves the file system as it
  was. -/
  | silent {env : Environment} {run : FilterRun} (hmodel : ModelOf fs options env)
    (hskips : run.response.skipTypes = skips)
    (hreport : run.response.report = (Filter.ofSkips skips.value).report env)
    (hnone : run.response.written = none) (hpath : Announced options run.response.report none) :
    Ends fs options skips (.ok run, fs)
  /-- A run that announces a file has reported on the model and has written the filtered model
  there, and nothing else. -/
  | written {env : Environment} {run : FilterRun} {path : String} {after : FileSystem}
    (hmodel : ModelOf fs options env) (hskips : run.response.skipTypes = skips)
    (hreport : run.response.report = (Filter.ofSkips skips.value).report env)
    (hsome : run.response.written = some path)
    (hpath : Announced options run.response.report (some path))
    (hholds : fs.Holds path
      (((Filter.ofSkips skips.value).apply env).toJson.pretty ++ "\n") after) :
    Ends fs options skips (.ok run, after)

/-- A run goes where it says. -/
theorem announced_destination (options : FilterOptions) (report : Report) :
    Announced options report (options.destination report) := by
  unfold FilterOptions.destination
  split
  · next htarget => exact .nowhere htarget
  · next htarget =>
    split
    · next hempty => exact .untouched htarget (by simpa [Report.isEmpty] using hempty)
    · next hsome => exact .inPlace htarget (by simpa [Report.isEmpty] using hsome)
  · next htarget => exact .file htarget

variable {disk : Disk (StateM FileSystem)}

/-- A model is written where the path leads, or nothing but what is there is changed. -/
theorem runOn_writeModel (hdisk : disk.Faithful) (fs : FileSystem) (path : String)
    (env : Environment) :
    (∃ after, runOn fs (writeModel disk path env) = (.ok (), after) ∧
      fs.Holds path env.text after) ∨
      ∃ fault after, runOn fs (writeModel disk path env) = (.error (.write path fault), after) ∧
        fs.SameBut path after := by
  rw [runOn_writeModel_eq]
  rcases hwrite : (disk.write path env.text).run fs with ⟨fault | ⟨⟨⟩⟩, after⟩
  · exact Or.inr ⟨fault, after, rfl, hdisk.write_error hwrite⟩
  · exact Or.inl ⟨after, rfl, FileSystem.holds_of_write (hdisk.write_ok hwrite)⟩

/-- A filter run with given unwanted types ends in one of the four ways. -/
theorem ends_filterWith (hdisk : disk.Faithful) (fs : FileSystem) (options : FilterOptions)
    (skips : Sourced SkipTypes) :
    Ends fs options skips (runOn fs (filterWith disk options skips)) := by
  obtain ⟨loaded, hload, hloaded⟩ :=
    reads_loadModel hdisk (Path.join options.directory options.model) fs
  rw [filterWith, runOn_bind, hload]
  cases loaded with
  | error e => exact .failed fun path fault heq => hloaded path fault (congrArg Except.error heq)
  | ok env =>
    have hmodel : ModelOf fs options env := parse_of_runOn_loadModel hdisk hload
    have hannounced := announced_destination options ((Filter.ofSkips skips.value).report env)
    dsimp only
    cases hpath : options.destination ((Filter.ofSkips skips.value).report env) with
    | none =>
      rw [hpath] at hannounced
      exact .silent hmodel rfl rfl rfl hannounced
    | some path =>
      rw [hpath] at hannounced
      dsimp only
      rw [runOn_bind]
      rcases runOn_writeModel hdisk fs path ((Filter.ofSkips skips.value).apply env) with
        ⟨after, hwrite, hholds⟩ | ⟨fault, after, hwrite, hrest⟩
      · rw [hwrite]
        exact .written hmodel rfl rfl rfl hannounced hholds
      · rw [hwrite]
        exact .unwritten hmodel hannounced hrest

/-- A filter run ends in one of the four ways with the unwanted types that its configuration is
resolved to. If this fails, the run fails in the same way, which is not to write, and leaves the
file system as it was. -/
theorem filter_ends (hdisk : disk.Faithful) (fs : FileSystem) (options : FilterOptions) :
    (∀ skips, Ends fs options skips (runOn fs (filterWith disk options skips))) ∧
      ∀ fromEnv, (∃ e, (∀ path fault, e ≠ Failure.write path fault) ∧
          runOn fs (Config.resolve disk options.directory options.overrides fromEnv) =
            (.error e, fs) ∧
          runOn fs (filter disk options fromEnv) = (.error e, fs)) ∨
        ∃ resolved, runOn fs (Config.resolve disk options.directory options.overrides fromEnv) =
            (.ok resolved, fs) ∧
          Ends fs options resolved.skipTypes (runOn fs (filter disk options fromEnv)) := by
  refine ⟨ends_filterWith hdisk fs options, fun fromEnv => ?_⟩
  obtain ⟨result, hresolve, hresult⟩ :=
    reads_resolve hdisk options.directory options.overrides fromEnv fs
  have hfilter := runOn_bind fs (Config.resolve disk options.directory options.overrides fromEnv)
    fun resolved => filterWith disk options resolved.skipTypes
  rw [hresolve] at hfilter ⊢
  cases result with
  | error e =>
    have hwrite : ∀ path fault, e ≠ .write path fault := fun path fault heq =>
      hresult path fault (congrArg Except.error heq)
    exact .inl ⟨e, hwrite, rfl, hfilter⟩
  | ok resolved =>
    refine .inr ⟨resolved, rfl, ?_⟩
    rw [filter, hfilter]
    exact ends_filterWith hdisk fs options resolved.skipTypes

/-- Without room, filtering in place fails to write; with room, it says where it has written. -/
theorem filter_ends_point :
    FileSystem.fullDisk.Faithful ∧
      Ends pointFiles pointOptions pointSkips
        (runOn pointFiles (filterWith FileSystem.fullDisk pointOptions pointSkips)) ∧
      (runOn pointFiles (filterWith FileSystem.fullDisk pointOptions pointSkips)).1 =
        .error (.write "data/model.json" FileSystem.noRoom) ∧
      FileSystem.disk.Faithful ∧
      Ends pointFiles pointOptions pointSkips
        (runOn pointFiles (filterWith FileSystem.disk pointOptions pointSkips)) ∧
      (runOn pointFiles (filterWith FileSystem.disk pointOptions pointSkips)).1.map
        (fun run => run.response.written) = .ok (some "data/model.json") := by
  refine ⟨FileSystem.faithful_fullDisk, (filter_ends FileSystem.faithful_fullDisk _ _).1 _, ?_,
    FileSystem.faithful_disk, (filter_ends FileSystem.faithful_disk _ _).1 _, ?_⟩
  · decide +kernel
  · decide +kernel

end Command

end TypeSieve
