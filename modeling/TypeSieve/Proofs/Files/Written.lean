import TypeSieve.Files.FileSystem
import TypeSieve.Proofs.Outcome

/-!
# Written files

Writing puts a file at the location that its path leads to and changes no other location. All
locations on the way are directories and the written one is not, so the path leads there still, and
what is read from it is what was written.
-/

namespace TypeSieve.FileSystem

/-- An entry that is put at a location stands there, unless this is the top. -/
theorem entry?_put_self (fs : FileSystem) {location : Location} (h : location ≠ [])
    (entry : Entry) : entry? (fs.put location entry) location = some entry := by
  unfold entry?
  rw [if_neg h]
  exact List.lookup_cons_self

/-- Putting an entry at a location changes no other location. -/
theorem entry?_put_of_ne (fs : FileSystem) {location other : Location} (h : other ≠ location)
    (entry : Entry) : entry? (fs.put location entry) other = fs.entry? other := by
  have hlookup : ∀ entries : List (Location × Entry),
      (entries.filter fun found => found.1 ≠ location).lookup other = entries.lookup other := by
    intro entries
    induction entries with
    | nil => rfl
    | cons head rest ih =>
      obtain ⟨place, found⟩ := head
      by_cases hplace : place = location
      · subst hplace
        simpa [List.lookup_cons, beq_false_of_ne h] using ih
      · cases hkey : other == place with
        | true => simp [hplace, List.lookup_cons, hkey]
        | false => simpa [hplace, List.lookup_cons, hkey] using ih
  unfold entry?
  rw [put, List.lookup_cons, beq_false_of_ne h]
  exact congrArg (fun found => if other = [] then some Entry.directory else found)
    (hlookup fs.entries)

/-- Names that lead to a location that is no directory lead there still when something is put
there. -/
theorem follow_put {fs : FileSystem} {location : Location}
    (hfile : fs.entry? location ≠ some .directory) (entry : Entry) {start : Location}
    {names : List String} (h : fs.follow start names = .ok location) :
    (fs.put location entry).follow start names = .ok location := by
  induction names generalizing start with
  | nil => exact h
  | cons name rest ih =>
    cases hstart : fs.entry? start with
    | none => simp [follow, hstart] at h
    | some found =>
      cases found with
      | file content => simp [follow, hstart] at h
      | directory =>
        have hne : start ≠ location := fun heq => hfile (heq ▸ hstart)
        simp only [follow, hstart, entry?_put_of_ne fs hne] at h ⊢
        split_ifs at h ⊢
        · exact ih h
        · exact ih h
        · exact ih h

/-- A path without an empty name at its end has no names but those before its end. -/
theorem names_of_splitTrailing {path : String} {names : List String}
    (h : splitTrailing path = (names, false)) : Path.names path = names := by
  obtain ⟨hnames, hlast⟩ := Prod.mk.inj h
  rw [← hnames, eq_comm, List.reverse_eq_iff]
  cases hbackward : (Path.names path).reverse with
  | nil => rfl
  | cons last rest =>
    rw [hbackward] at hlast
    exact List.dropWhile_cons_of_neg (by simpa using hlast)

/-- A writer is led to where the names of the path lead, and not to a directory. -/
theorem follow_of_target {fs : FileSystem} {path : String} {location : Location}
    (h : fs.target path = .ok location) :
    checkPath path = .ok () ∧ fs.follow [] (Path.names path) = .ok location ∧
      fs.entry? location ≠ some .directory := by
  obtain ⟨⟨⟩, hcheck, h⟩ := bind_eq_ok_iff.mp h
  cases hsplit : splitTrailing path with
  | mk names trailing =>
    rw [hsplit] at h
    cases trailing with
    | true =>
      obtain ⟨above, -, h⟩ := bind_eq_ok_iff.mp h
      cases h
    | false =>
      obtain ⟨found, hfound, h⟩ := bind_eq_ok_iff.mp h
      split at h
      · cases h
      · next hdirectory =>
        obtain rfl := Except.ok.inj h
        refine ⟨hcheck, names_of_splitTrailing hsplit ▸ hfound, fun hentry => hdirectory ?_⟩
        rw [hentry]
        rfl

/-- A text is what its bytes are read as. -/
theorem fromUTF8?_toUTF8 (text : String) : String.fromUTF8? text.toUTF8 = some text :=
  dif_pos text.isValidUTF8

/-- What was written to a path is read from it. -/
theorem read_of_write {fs after : FileSystem} {path text : String}
    (h : fs.write path text = .ok after) : after.read path = .ok text := by
  obtain ⟨location, htarget, rfl⟩ := map_eq_ok_iff.mp h
  obtain ⟨hcheck, hfollow, hfile⟩ := follow_of_target htarget
  have htop : location ≠ [] := by
    rintro rfl
    exact hfile (if_pos rfl)
  have hfind : (fs.put location (.file text.toUTF8)).find path = .ok (.file text.toUTF8) := by
    refine bind_eq_ok_iff.mpr ⟨(), hcheck, ?_⟩
    refine bind_eq_ok_iff.mpr ⟨location, follow_put hfile _ hfollow, ?_⟩
    rw [entry?_put_self fs htop]
  refine bind_eq_ok_iff.mpr ⟨_, hfind, ?_⟩
  dsimp only
  rw [fromUTF8?_toUTF8]

end TypeSieve.FileSystem
