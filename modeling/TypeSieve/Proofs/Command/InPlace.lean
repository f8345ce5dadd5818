import TypeSieve.Proofs.Command.Runs
import TypeSieve.Proofs.Files.Written
import TypeSieve.Proofs.Filter.Passes
import TypeSieve.Proofs.Filter.Saved
import TypeSieve.Proofs.Model.Texts

/-!
# Filtering in place

A filter run over the file of its model leaves a file that it does not change any more: the model
that it writes is read back as it is, and the pass over it finds nothing to remove, so nothing is
written again.
-/

namespace TypeSieve.Command

variable {fs after : FileSystem}

/-- In place, a run writes nothing if it removes nothing. -/
theorem destination_of_removals_eq_nil {options : FilterOptions}
    (htarget : options.target = .inPlace) {report : Report} (h : report.removals = []) :
    options.destination report = none := by
  rw [FilterOptions.destination, htarget]
  exact if_pos (by simp [Report.isEmpty, h])

/-- In place, a run that removes something writes to the file of its model. -/
theorem destination_of_removals_ne_nil {options : FilterOptions}
    (htarget : options.target = .inPlace) {report : Report} (h : report.removals ≠ []) :
    options.destination report = some (Path.join options.directory options.model) := by
  rw [FilterOptions.destination, htarget]
  exact if_neg (by simpa [Report.isEmpty] using h)

/-- A model that is read from a text without binary64 numbers is, after any pass, read back from its
own text. -/
theorem parse_text_of_apply {text : String} {value : Json} {env : Environment}
    (hvalue : Json.parse? text = some value) (hintegral : value.Integral)
    (hparse : Environment.parse text = .ok env) (f : Filter) :
    Environment.parse (f.apply env).text = .ok (f.apply env) := by
  have hlimit : Json.depthLimit = 120 + 7 := rfl
  have hplain := Json.plain_of_parse? hvalue hintegral
  have hloaded :=
    Environment.loaded_of_ofJson (Environment.ofJson_of_parse hvalue hparse) (hlimit ▸ hplain)
  exact ((f.loaded_apply hloaded).readBack (by decide)).2.2

/-- If a run in place over a file without binary64 numbers succeeds, a second one on the file system
that it leaves succeeds too. It removes nothing, visits as many classes, writes nothing and leaves
the file system as it is. A first run that removes nothing has left its file system as it was
already. -/
theorem filterWith_in_place_twice {options : FilterOptions} {skips : Sourced SkipTypes}
    {text : String} {value : Json} {run : FilterRun} (htarget : options.target = .inPlace)
    (htext : fs.read (Path.join options.directory options.model) = .ok text)
    (hvalue : Json.parse? text = some value) (hintegral : value.Integral)
    (hrun : runOn fs (filterWith FileSystem.disk options skips) = (.ok run, after)) :
    (∃ again, runOn after (filterWith FileSystem.disk options skips) = (.ok again, after) ∧
      again.response.report.removals = [] ∧
      again.response.report.classesVisited = run.response.report.classesVisited ∧
      again.response.written = none) ∧
    (run.response.report.removals = [] → after = fs) := by
  obtain ⟨found, env, hfound, hparse, rfl, hdelivered⟩ := runOn_filterWith_eq_ok_iff.mp hrun
  obtain rfl : text = found := Except.ok.inj (htext.symm.trans hfound)
  by_cases hremovals : ((Filter.ofSkips skips.value).report env).removals = []
  · -- The file is as it was, so the second run is the first once more.
    have hnone := destination_of_removals_eq_nil htarget hremovals
    change Delivered fs (options.destination _) _ after at hdelivered
    rw [hnone] at hdelivered
    obtain rfl : after = fs := hdelivered
    exact ⟨⟨_, hrun, hremovals, rfl, hnone⟩, fun _ => rfl⟩
  · change Delivered fs (options.destination _) _ after at hdelivered
    rw [destination_of_removals_ne_nil htarget hremovals] at hdelivered
    have htext := FileSystem.read_of_write hdelivered
    have hback := parse_text_of_apply hvalue hintegral hparse (Filter.ofSkips skips.value)
    have hreport := (Filter.ofSkips skips.value).report_apply env
    have hnil := congrArg Report.removals hreport
    have hvisited := congrArg Report.classesVisited hreport
    have hnone := destination_of_removals_eq_nil htarget hnil
    refine ⟨⟨.ofModel options skips ((Filter.ofSkips skips.value).apply env), ?_, hnil, hvisited,
      hnone⟩, fun h => absurd h hremovals⟩
    refine runOn_filterWith_eq_ok_iff.mpr ⟨_, _, htext, hback, rfl, ?_⟩
    change Delivered after (options.destination _) _ after
    rw [hnone]
    rfl

/-- A value with an attribute of an unwanted type. -/
def point : Json :=
  .object [("geometry", .object [("Point", .object [
    ("attrs", .object [("tag", .string "int32"), ("x", .string "float64")]),
    ("methods", .array []), ("name", .string "Point")])])]

/-- The model that is read from this value. -/
def pointModel : Environment :=
  ⟨.ofList [("geometry", .ofList [("Point", .ofClass {
    name := "Point"
    attrs := .ofList [("tag", .leaf "int32"), ("x", .leaf "float64")]
    methods := .empty
    extra := .empty })])]⟩

/-- A directory with a file that holds this value. -/
def pointFiles : FileSystem :=
  ⟨[(["data"], .directory), (["data", "model.json"], .file point.compact.toUTF8)]⟩

/-- Filter this file in place. -/
def pointOptions : FilterOptions := ⟨"data", "model.json", .inPlace, ⟨none, [], []⟩⟩

/-- The unwanted types, given by a flag. -/
def pointSkips : Sourced SkipTypes := ⟨.global [.leaf "float64"], .flag⟩

/-- The directory with the text of the filtered model in the file. -/
def filteredFiles : FileSystem :=
  pointFiles.put ["data", "model.json"]
    (.file ((Filter.ofSkips pointSkips.value).apply pointModel).text.toUTF8)

/-- The first run over this file removes the attribute and the second removes nothing. -/
theorem filterWith_in_place_twice_point :
    ∃ run again, runOn pointFiles (filterWith FileSystem.disk pointOptions pointSkips) =
        (.ok run, filteredFiles) ∧
      run.response.report.attributesRemoved = 1 ∧
      runOn filteredFiles (filterWith FileSystem.disk pointOptions pointSkips) =
        (.ok again, filteredFiles) ∧
      again.response.report.removals = [] := by
  have htext : pointFiles.read (Path.join pointOptions.directory pointOptions.model) =
      .ok point.compact := by
    decide +kernel
  have hparse : Environment.parse point.compact = .ok pointModel := by decide +kernel
  have hvalue : Json.parse? point.compact = some point := by decide +kernel
  have hintegral : point.Integral := by
    simp [point, Json.Integral, Json.IntegralItems, Json.IntegralMembers]
  have htarget : pointFiles.target (Path.join pointOptions.directory pointOptions.model) =
      .ok ["data", "model.json"] := by
    decide +kernel
  have hwritten : (FilterRun.ofModel pointOptions pointSkips pointModel).response.written =
      some (Path.join pointOptions.directory pointOptions.model) := by
    decide +kernel
  have hdelivered : Delivered pointFiles
      (FilterRun.ofModel pointOptions pointSkips pointModel).response.written
      ((Filter.ofSkips pointSkips.value).apply pointModel) filteredFiles := by
    rw [hwritten]
    exact map_eq_ok_iff.mpr ⟨_, htarget, rfl⟩
  have hrun : runOn pointFiles (filterWith FileSystem.disk pointOptions pointSkips) =
      (.ok (.ofModel pointOptions pointSkips pointModel), filteredFiles) :=
    runOn_filterWith_eq_ok_iff.mpr ⟨_, _, htext, hparse, rfl, hdelivered⟩
  obtain ⟨⟨again, hagain, hremovals, -⟩, -⟩ :=
    filterWith_in_place_twice rfl htext hvalue hintegral hrun
  exact ⟨_, again, hrun, by decide +kernel, hagain, hremovals⟩

end TypeSieve.Command
