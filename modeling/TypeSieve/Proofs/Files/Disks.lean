import TypeSieve.Proofs.Files.Written

/-!
# Disks over file systems

What commands may rely on when the disk is not the file system itself but a machine that works on
one: what is read is there, what is written is where the path leads, and any operation may fail. A
write that fails may have left anything in the place that it was to write to, and nothing elsewhere.
-/

namespace TypeSieve

namespace FileSystem

/-- Two file systems are the same but for the place that a path leads a writer to. -/
def SameBut (fs : FileSystem) (path : String) (after : FileSystem) : Prop :=
  ∀ location, fs.target path ≠ .ok location → after.entry? location = fs.entry? location

/-- A file system has a text in the one place that a path leads a writer to, and all else as it
was. -/
def Holds (fs : FileSystem) (path text : String) (after : FileSystem) : Prop :=
  ∃ location, fs.target path = .ok location ∧ after.entry? location = some (.file text.toUTF8) ∧
    ∀ other, other ≠ location → after.entry? other = fs.entry? other

/-- The top of a file system is a directory, and no writer is led to it. -/
theorem ne_nil_of_target {fs : FileSystem} {path : String} {location : Location}
    (h : fs.target path = .ok location) : location ≠ [] := by
  rintro rfl
  exact (follow_of_target h).2.2 (if_pos rfl)

/-- Writing puts the text in the one place that the path leads to. -/
theorem holds_of_write {fs after : FileSystem} {path text : String}
    (h : fs.write path text = .ok after) : fs.Holds path text after := by
  obtain ⟨location, htarget, rfl⟩ := map_eq_ok_iff.mp h
  exact ⟨location, htarget, entry?_put_self fs (ne_nil_of_target htarget) _,
    fun other hother => entry?_put_of_ne fs hother _⟩

end FileSystem

/-- A disk that works on a file system. -/
structure Disk.Faithful (disk : Disk (StateM FileSystem)) : Prop where
  /-- Looking for a file changes nothing. -/
  isFile : ∀ fs path, ((disk.isFile path).run fs).2 = fs
  /-- Reading changes nothing. -/
  read : ∀ fs path, ((disk.read path).run fs).2 = fs
  /-- A text that is read is in the file system. -/
  read_ok : ∀ {fs path text}, ((disk.read path).run fs).1 = .ok text → fs.read path = .ok text
  /-- A text that is written is in the file system from then on. -/
  write_ok : ∀ {fs path text after}, (disk.write path text).run fs = (.ok (), after) →
    fs.write path text = .ok after
  /-- A write that fails changes nothing outside the place it was to write to. -/
  write_error : ∀ {fs path text fault after},
    (disk.write path text).run fs = (.error fault, after) → fs.SameBut path after

/-- The file system takes a text if the path leads a writer somewhere, and stays as it was
otherwise. -/
theorem FileSystem.run_write (fs : FileSystem) (path text : String) :
    (FileSystem.disk.write path text).run fs =
      match fs.write path text with
      | .ok written => (.ok (), written)
      | .error fault => (.error fault, fs) := by
  rw [FileSystem.disk, StateT.run_bind, StateT.run_get, pure_bind]
  cases fs.write path text <;> rfl

/-- A file system is a faithful disk. -/
theorem FileSystem.faithful_disk : FileSystem.disk.Faithful where
  isFile _ _ := rfl
  read _ _ := rfl
  read_ok h := h
  write_ok {fs path text after} h := by
    rw [run_write] at h
    cases hwrite : fs.write path text with
    | ok written =>
      rw [hwrite] at h
      obtain rfl := (Prod.mk.inj h).2
      rfl
    | error fault =>
      rw [hwrite] at h
      cases (Prod.mk.inj h).1
  write_error {fs path text fault after} h := by
    rw [run_write] at h
    cases hwrite : fs.write path text with
    | ok written =>
      rw [hwrite] at h
      cases (Prod.mk.inj h).1
    | error fault =>
      rw [hwrite] at h
      obtain rfl := (Prod.mk.inj h).2
      exact fun _ _ => rfl

/-- The fault of a machine that has no room for what is written. -/
def FileSystem.noRoom : Fault := .other "No space left on device (os error 28)"

/-- A disk without room, where a write empties its file and fails. -/
def FileSystem.fullDisk : Disk (StateM FileSystem) where
  isFile := FileSystem.disk.isFile
  read := FileSystem.disk.read
  write path _ := fun fs =>
    match fs.write path "" with
    | .ok emptied => (.error noRoom, emptied)
    | .error fault => (.error fault, fs)

/-- A disk without room is faithful. -/
theorem FileSystem.faithful_fullDisk : FileSystem.fullDisk.Faithful where
  isFile _ _ := rfl
  read _ _ := rfl
  read_ok h := h
  write_ok {fs path text after} h := by
    change (match fs.write path "" with
      | .ok emptied => (.error noRoom, emptied)
      | .error fault => (.error fault, fs)) = (Except.ok (), after) at h
    split at h
    · cases (Prod.mk.inj h).1
    · cases (Prod.mk.inj h).1
  write_error {fs path text fault after} h := by
    change (match fs.write path "" with
      | .ok emptied => (.error noRoom, emptied)
      | .error fault => (.error fault, fs)) = (Except.error fault, after) at h
    split at h
    · next emptied hwrite =>
      obtain rfl := (Prod.mk.inj h).2
      obtain ⟨location, htarget, -, hothers⟩ := holds_of_write hwrite
      exact fun other hother => hothers other fun heq => hother (heq ▸ htarget)
    · obtain rfl := (Prod.mk.inj h).2
      exact fun _ _ => rfl

end TypeSieve
