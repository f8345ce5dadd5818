import TypeSieve.Proofs.Command.Runs
import TypeSieve.Proofs.Config.Merging

/-!
# The precedence of configurations

One file at most is considered for a configuration, and it has to load whatever the flags say. Flags
for unwanted types then stand above it, also above a file that a flag names. Without such flags the
file stands, and without a file the types are unset. What other files hold does not matter.
-/

namespace TypeSieve

namespace Sourced

variable {α : Type}

/-- Nothing is higher than a flag. -/
theorem merge_flag (earlier : Sourced α) (value : α) :
    earlier.merge ⟨value, .flag⟩ = ⟨value, .flag⟩ := by
  have hrank : ∀ source : Source, source.rank ≤ Source.flag.rank := by
    intro source
    cases source <;> decide
  exact merge_of_rank_le (hrank earlier.source)

end Sourced

namespace Overrides

/-- Flags say nothing about unwanted types exactly if there is none for them. -/
theorem skipTypes?_eq_none_iff (o : Overrides) :
    o.skipTypes? = .ok none ↔ o.skip = [] ∧ o.skipFor = [] := by
  unfold skipTypes?
  constructor
  · intro h
    split at h
    · exact ⟨‹_›, ‹_›⟩
    · cases h
    · obtain ⟨patterns, -, hgiven⟩ := bind_eq_ok_iff.mp h
      cases hgiven
    · obtain ⟨entries, -, hgiven⟩ := bind_eq_ok_iff.mp h
      cases hgiven
  · intro h
    rw [h.1, h.2]

end Overrides

namespace Config

open Command (runOn)

variable {fs fs' : FileSystem} {directory : String} {o : Overrides} {fromEnv : Option String}
  {file other : Option (Sourced String)} {result : Except Failure Resolved}

/-- The file to be considered for a configuration: the one that a flag names, else the one that the
environment names, else the project's own if there is such a file. -/
inductive Considered (fs : FileSystem) (directory : String) (o : Overrides)
    (fromEnv : Option String) :
    Option (Sourced String) → Prop
  | flag {path : String} : o.config = some path →
      Considered fs directory o fromEnv (some ⟨Path.join directory path, .flag⟩)
  | environment {path : String} : o.config = none → fromEnv = some path →
      Considered fs directory o fromEnv (some ⟨Path.join directory path, .environment⟩)
  | project {content : ByteArray} : o.config = none → fromEnv = none →
      fs.find (Path.join directory "typefilter.toml") = .ok (.file content) →
      Considered fs directory o fromEnv (some ⟨Path.join directory "typefilter.toml", .project⟩)
  | nothing : o.config = none → fromEnv = none →
      (∀ content, fs.find (Path.join directory "typefilter.toml") ≠ .ok (.file content)) →
      Considered fs directory o fromEnv none

/-- The unwanted types of the file at a path, or why they cannot be loaded. -/
def loaded (fs : FileSystem) (path : String) : Except Failure SkipTypes := do
  let text ← (fs.read path).mapError (.read path)
  skipTypesOf path text

/-- The file loads, if one is considered. -/
def Loads (fs : FileSystem) (file : Option (Sourced String)) : Prop :=
  ∀ place ∈ file, ∃ skips, loaded fs place.value = .ok skips

/-- What a configuration is resolved to when its file is known. -/
inductive Outcome (fs : FileSystem) (o : Overrides) :
    Option (Sourced String) → Except Failure Resolved → Prop
  /-- The file does not load, and the flags are not looked at. -/
  | unloaded {place : Sourced String} {e : Failure} :
      loaded fs place.value = .error e → Outcome fs o (some place) (.error e)
  /-- The flags are bad. -/
  | refused {file : Option (Sourced String)} {e : Failure} :
      Loads fs file → o.skipTypes? = .error e → Outcome fs o file (.error e)
  /-- There are flags for unwanted types. -/
  | flags {file : Option (Sourced String)} {given : SkipTypes} :
      Loads fs file → o.skip ≠ [] ∨ o.skipFor ≠ [] → o.skipTypes? = .ok (some given) →
      Outcome fs o file (.ok ⟨file, ⟨given, .flag⟩⟩)
  /-- There are none, and the file stands even if it sets nothing. -/
  | file {place : Sourced String} {skips : SkipTypes} :
      loaded fs place.value = .ok skips → o.skip = [] → o.skipFor = [] →
      Outcome fs o (some place) (.ok ⟨some place, ⟨skips, place.source⟩⟩)
  /-- There is neither. -/
  | unset : o.skip = [] → o.skipFor = [] → Outcome fs o none (.ok ⟨none, ⟨.unset, .builtIn⟩⟩)

/-- There is a file, and no directory, at a path exactly if the path leads to one. -/
theorem isFile_iff (fs : FileSystem) (path : String) :
    fs.isFile path = true ↔ ∃ content, fs.find path = .ok (.file content) := by
  unfold FileSystem.isFile
  split <;> simp_all

/-- The project's file is located if it is there. -/
theorem run_locate_project (fs : FileSystem) (directory : String) (skip skipFor : List String) :
    (locate FileSystem.disk directory ⟨none, skip, skipFor⟩ none).run fs =
      (if fs.isFile (Path.join directory projectFile)
        then some ⟨Path.join directory projectFile, .project⟩ else none, fs) := rfl

/-- The file that is considered is the one that is located. -/
theorem Considered.run_locate (h : Considered fs directory o fromEnv file) :
    (locate FileSystem.disk directory o fromEnv).run fs = (file, fs) := by
  obtain ⟨config, skip, skipFor⟩ := o
  cases h with
  | flag hconfig =>
    obtain rfl : config = some _ := hconfig
    rfl
  | environment hconfig henv =>
    obtain rfl : config = none := hconfig
    obtain rfl := henv
    rfl
  | project hconfig henv hfind =>
    obtain rfl : config = none := hconfig
    obtain rfl := henv
    rw [run_locate_project, projectFile, if_pos ((isFile_iff ..).mpr ⟨_, hfind⟩)]
  | nothing hconfig henv hfind =>
    obtain rfl : config = none := hconfig
    obtain rfl := henv
    rw [run_locate_project, projectFile, if_neg]
    rw [isFile_iff]
    rintro ⟨content, h⟩
    exact hfind content h

/-- One file or none is considered. -/
theorem exists_considered (fs : FileSystem) (directory : String) (o : Overrides)
    (fromEnv : Option String) : ∃ file, Considered fs directory o fromEnv file := by
  cases hconfig : o.config with
  | some path => exact ⟨_, .flag hconfig⟩
  | none =>
    cases fromEnv with
    | some path => exact ⟨_, .environment hconfig rfl⟩
    | none =>
      by_cases h : ∃ content, fs.find (Path.join directory "typefilter.toml") = .ok (.file content)
      · obtain ⟨content, h⟩ := h
        exact ⟨_, .project hconfig rfl h⟩
      · exact ⟨_, .nothing hconfig rfl (not_exists.mp h)⟩

/-- No two files are considered. -/
theorem Considered.unique (h : Considered fs directory o fromEnv file)
    (hother : Considered fs directory o fromEnv other) : other = file :=
  congrArg Prod.fst (hother.run_locate.symm.trans h.run_locate)

/-- A considered file loads or does not, the flags are bad or not, and then they say something or
nothing. -/
theorem exists_outcome (fs : FileSystem) (o : Overrides) (file : Option (Sourced String)) :
    ∃ result, Outcome fs o file result := by
  by_cases hload : Loads fs file
  · cases hflags : o.skipTypes? with
    | error e => exact ⟨_, .refused hload hflags⟩
    | ok given =>
      cases given with
      | some given =>
        refine ⟨_, .flags hload ?_ hflags⟩
        by_contra hnone
        rw [not_or, not_not, not_not, ← Overrides.skipTypes?_eq_none_iff, hflags] at hnone
        cases hnone
      | none =>
        obtain ⟨hskip, hskipFor⟩ := o.skipTypes?_eq_none_iff.mp hflags
        cases file with
        | none => exact ⟨_, .unset hskip hskipFor⟩
        | some place =>
          obtain ⟨skips, hskips⟩ := hload place rfl
          exact ⟨_, .file hskips hskip hskipFor⟩
  · cases file with
    | none => exact absurd (fun _ => nofun) hload
    | some place =>
      cases hplace : loaded fs place.value with
      | error e => exact ⟨_, .unloaded hplace⟩
      | ok skips =>
        refine absurd (fun other hother => ?_) hload
        obtain rfl := Option.some.inj hother
        exact ⟨skips, hplace⟩

/-- What stands before the flags are looked at. -/
def standing (fs : FileSystem) : Option (Sourced String) → Except Failure (Sourced SkipTypes)
  | none => .ok ⟨.unset, .builtIn⟩
  | some place => (loaded fs place.value).map fun skips => ⟨skips, place.source⟩

/-- Loading a configuration leaves the file system as it was. -/
theorem runOn_load (fs : FileSystem) (path : String) :
    runOn fs (load FileSystem.disk path) = (loaded fs path, fs) := by
  rw [load, Command.runOn_bind, Command.runOn_readText, loaded]
  cases fs.read path <;> rfl

/-- A file stands above the built-in configuration, whatever its source. -/
theorem merge_unconfigured (later : Sourced SkipTypes) : unconfigured.merge later = later :=
  Sourced.merge_of_rank_le (Nat.zero_le _)

/-- Flags stand above everything. -/
theorem runOn_flags (fs : FileSystem) (o : Overrides) (file : Option (Sourced String))
    (configured : Sourced SkipTypes) :
    runOn fs (ExceptT.mk (pure o.skipTypes?) >>= fun given => match given with
      | none => pure (Resolved.mk file configured)
      | some skips => pure (Resolved.mk file (configured.merge ⟨skips, .flag⟩))) =
      (o.skipTypes?.map fun given =>
        ⟨file, given.elim configured fun skips => ⟨skips, .flag⟩⟩, fs) := by
  simp only [Sourced.merge_flag]
  rw [Command.runOn_bind, Command.runOn_pure]
  rcases o.skipTypes? with e | _ | given <;> rfl

/-- A configuration is resolved to what stands, unless there are flags for unwanted types. -/
theorem Considered.runOn_resolve (h : Considered fs directory o fromEnv file) :
    runOn fs (resolve FileSystem.disk directory o fromEnv) =
      (do
        let configured ← standing fs file
        o.skipTypes?.map fun given =>
          ⟨file, given.elim configured fun skips => ⟨skips, .flag⟩⟩, fs) := by
  have hlocate :
      runOn fs (ExceptT.lift (locate FileSystem.disk directory o fromEnv)) = (.ok file, fs) :=
    congrArg (fun located => (Except.ok located.1, located.2)) h.run_locate
  rw [resolve, Command.runOn_bind, hlocate]
  cases file with
  | none =>
    simp only [pure_bind]
    exact runOn_flags fs o none unconfigured
  | some place =>
    simp only [pure_bind]
    rw [Command.runOn_bind, runOn_load, standing]
    cases loaded fs place.value with
    | error e => rfl
    | ok skips =>
      simp only [merge_unconfigured]
      exact runOn_flags fs o (some place) ⟨skips, place.source⟩

/-- A file that loads stands. -/
theorem Loads.standing_eq_ok (h : Loads fs file) :
    ∃ configured, standing fs file = .ok configured := by
  cases file with
  | none => exact ⟨_, rfl⟩
  | some place =>
    obtain ⟨skips, hskips⟩ := h place rfl
    exact ⟨_, by rw [standing, hskips]; rfl⟩

/-- A configuration is resolved to its outcome. -/
theorem Outcome.runOn_resolve (h : Outcome fs o file result)
    (hfile : Considered fs directory o fromEnv file) :
    runOn fs (resolve FileSystem.disk directory o fromEnv) = (result, fs) := by
  rw [hfile.runOn_resolve]
  cases h with
  | unloaded hload =>
    rw [standing, hload]
    rfl
  | refused hload hflags =>
    obtain ⟨configured, hstanding⟩ := hload.standing_eq_ok
    rw [hstanding, hflags]
    rfl
  | flags hload _ hflags =>
    obtain ⟨configured, hstanding⟩ := hload.standing_eq_ok
    rw [hstanding, hflags]
    rfl
  | file hload hskip hskipFor =>
    rw [standing, hload, o.skipTypes?_eq_none_iff.mpr ⟨hskip, hskipFor⟩]
    rfl
  | unset hskip hskipFor =>
    rw [standing, o.skipTypes?_eq_none_iff.mpr ⟨hskip, hskipFor⟩]
    rfl

/-- A considered file has one outcome. -/
theorem Outcome.unique {again : Except Failure Resolved} (h : Outcome fs o file result)
    (hagain : Outcome fs o file again) (hfile : Considered fs directory o fromEnv file) :
    again = result :=
  congrArg Prod.fst ((hagain.runOn_resolve hfile).symm.trans (h.runOn_resolve hfile))

/-- The outcome depends on the considered file only. -/
theorem Outcome.of_read_eq (h : Outcome fs o file result)
    (hread : ∀ place ∈ file, fs'.read place.value = fs.read place.value) :
    Outcome fs' o file result := by
  have hloaded : ∀ place ∈ file, loaded fs' place.value = loaded fs place.value := by
    intro place hplace
    rw [loaded, hread place hplace, loaded]
  have hloads : Loads fs file → Loads fs' file := by
    intro hload place hplace
    rw [hloaded place hplace]
    exact hload place hplace
  cases h with
  | unloaded hload => exact .unloaded ((hloaded _ rfl).trans hload)
  | refused hload hflags => exact .refused (hloads hload) hflags
  | flags hload hgiven hflags => exact .flags (hloads hload) hgiven hflags
  | file hload hskip hskipFor => exact .file ((hloaded _ rfl).trans hload) hskip hskipFor
  | unset hskip hskipFor => exact .unset hskip hskipFor

/-- Resolving a configuration considers exactly one file or none, has exactly one outcome for it and
leaves the file system as it was. On any other file system where the same file is considered and
reads alike the result is the same. -/
theorem resolve_in_precedence (fs : FileSystem) (directory : String) (o : Overrides)
    (fromEnv : Option String) :
    ∃ file result,
      (∀ other, Considered fs directory o fromEnv other ↔ other = file) ∧
      (∀ other, Outcome fs o file other ↔ other = result) ∧
      runOn fs (resolve FileSystem.disk directory o fromEnv) = (result, fs) ∧
      ∀ fs', Considered fs' directory o fromEnv file →
        (∀ place ∈ file, fs'.read place.value = fs.read place.value) →
        runOn fs' (resolve FileSystem.disk directory o fromEnv) = (result, fs') := by
  obtain ⟨file, hfile⟩ := exists_considered fs directory o fromEnv
  obtain ⟨result, hresult⟩ := exists_outcome fs o file
  refine ⟨file, result, fun other => ⟨hfile.unique, ?_⟩, fun other => ⟨?_, ?_⟩,
    hresult.runOn_resolve hfile, fun fs' hfile' hread => ?_⟩
  · rintro rfl
    exact hfile
  · exact fun hother => hresult.unique hother hfile
  · rintro rfl
    exact hresult
  · exact (hresult.of_read_eq hread).runOn_resolve hfile'

/-- A directory with the file of a project beside one that is to be named. -/
def projectFiles : FileSystem :=
  ⟨[(["data"], .directory), (["data", "typefilter.toml"], .file "skiptypes = [\"int32\"]".toUTF8),
    (["data", "shared.toml"], .file "skiptypes = [\"float64\"]".toUTF8)]⟩

/-- The directory with the file that is to be named only. -/
def sharedFiles : FileSystem :=
  ⟨[(["data"], .directory), (["data", "shared.toml"], .file "skiptypes = [\"float64\"]".toUTF8)]⟩

/-- Name the file and give a pattern as well. -/
def namedOverrides : Overrides := ⟨some "shared.toml", ["uint8"], []⟩

/-- What the flags are resolved to: the pattern stands above the file, which is as high. -/
def namedResolved : Resolved := ⟨some ⟨"data/shared.toml", .flag⟩, ⟨.global [.leaf "uint8"], .flag⟩⟩

/-- The named file has to load, the pattern stands above it, and the file of the project may be
gone. -/
theorem resolve_in_precedence_named :
    runOn projectFiles (resolve FileSystem.disk "data" namedOverrides (some "other.toml")) =
        (.ok namedResolved, projectFiles) ∧
      runOn sharedFiles (resolve FileSystem.disk "data" namedOverrides (some "other.toml")) =
        (.ok namedResolved, sharedFiles) := by
  obtain ⟨file, result, hfile, hresult, hrun, hothers⟩ :=
    resolve_in_precedence projectFiles "data" namedOverrides (some "other.toml")
  have hpath : Path.join "data" "shared.toml" = "data/shared.toml" := by decide +kernel
  have hnamed : ∀ fs, Considered fs "data" namedOverrides (some "other.toml")
      (some ⟨"data/shared.toml", .flag⟩) := fun fs => hpath ▸ .flag rfl
  obtain rfl := (hfile (some ⟨"data/shared.toml", .flag⟩)).mp (hnamed projectFiles)
  have hloaded : loaded projectFiles "data/shared.toml" = .ok (.global [.leaf "float64"]) := by
    decide +kernel
  have hflags : namedOverrides.skipTypes? = .ok (some (.global [.leaf "uint8"])) := by
    decide +kernel
  have hloads : Loads projectFiles (some ⟨"data/shared.toml", .flag⟩) := by
    rintro place ⟨⟩
    exact ⟨_, hloaded⟩
  obtain rfl := (hresult (.ok namedResolved)).mp (.flags hloads (.inl (by decide)) hflags)
  refine ⟨hrun, hothers sharedFiles (hnamed sharedFiles) ?_⟩
  rintro place ⟨⟩
  decide +kernel

end Config

end TypeSieve
