import TypeSieve.Proofs.Config.Precedence
import TypeSieve.Proofs.Dict
import TypeSieve.Proofs.Text.Strip

/-!
# Loading a configuration

A file is read as JSON if its name ends in that extension, in letters of either case, and as TOML
otherwise. Either document gives the value of one key, or null if it does not have the key, and the
unwanted types are those that the value describes. A text that is no such document holds no
configuration.
-/

namespace TypeSieve

namespace Path

/-- The last name of a path is the last that is neither empty nor a dot, unless it leads upwards. -/
theorem lastName?_eq_some_iff_find? (path name : String) :
    lastName? path = some name ↔ name ≠ ".." ∧
      (names path).reverse.find? (fun name => decide (name ≠ "" ∧ name ≠ ".")) = some name := by
  rw [lastName?, List.getLast?_filter]
  split
  · next hup =>
    constructor
    · nofun
    · rintro ⟨hname, h⟩
      exact absurd (Option.some.inj (h.symm.trans hup)) hname
  · next hother =>
    refine ⟨fun h => ⟨?_, h⟩, And.right⟩
    rintro rfl
    exact hother h

/-- The last name of a path is neither empty nor dots, and only empty names and single dots stand
behind it. -/
theorem lastName?_eq_some_iff (path name : String) :
    lastName? path = some name ↔ name ∉ ["", ".", ".."] ∧ ∃ before after,
      names path = before ++ name :: after ∧ ∀ other ∈ after, other ∈ ["", "."] := by
  have hname : name ∉ ["", ".", ".."] ↔ name ≠ ".." ∧ decide (name ≠ "" ∧ name ≠ ".") = true := by
    simp only [List.mem_cons, List.not_mem_nil, or_false, not_or, decide_eq_true_iff]
    tauto
  have hskipped (other : String) :
      (!decide (other ≠ "" ∧ other ≠ ".")) = true ↔ other ∈ ["", "."] := by
    simp [Classical.or_iff_not_imp_left]
  rw [lastName?_eq_some_iff_find?, List.find?_eq_some_iff_append, hname, and_assoc]
  simp only [hskipped]
  refine and_congr_right' (and_congr_right' ?_)
  constructor
  · rintro ⟨behind, before, hnames, hbehind⟩
    refine ⟨before.reverse, behind.reverse, ?_,
      fun other h => hbehind other (List.mem_reverse.mp h)⟩
    rw [List.reverse_eq_iff] at hnames
    simpa using hnames
  · rintro ⟨before, after, hnames, hafter⟩
    exact ⟨after.reverse, before.reverse, by simp [hnames],
      fun other h => hafter other (List.mem_reverse.mp h)⟩

/-- The extension of a path stands behind the last dot of its last name, and something before it. -/
theorem extension?_eq_some_iff (path extension : String) :
    extension? path = some extension ↔ ∃ stem, stem ≠ "" ∧
      lastName? path = some (stem ++ "." ++ extension) ∧ '.' ∉ extension.toList := by
  simp only [extension?, Option.bind_eq_bind, Option.bind_eq_some_iff]
  constructor
  · rintro ⟨name, hname, hextension⟩
    by_cases hdot : '.' ∈ name.toList.reverse
    · obtain ⟨run, front, hsplit, hrun⟩ := List.eq_append_cons_of_mem hdot
      rw [hsplit, Text.takeWhile_ne hrun, Text.dropWhile_ne hrun, List.drop_one, List.tail_cons]
        at hextension
      split at hextension
      · cases hextension
      · next hfront =>
        obtain rfl := Option.some.inj hextension
        have heq : name = String.ofList front.reverse ++ "." ++ String.ofList run.reverse := by
          rw [List.reverse_eq_iff] at hsplit
          exact String.toList_inj.mp (by simp [hsplit])
        exact ⟨String.ofList front.reverse, by simpa using hfront, heq ▸ hname, by simpa using hrun⟩
    · rw [Text.dropWhile_ne_eq_nil hdot] at hextension
      cases hextension
  · rintro ⟨stem, hstem, hname, hdot⟩
    have hbackward : (stem ++ "." ++ extension).toList.reverse =
        extension.toList.reverse ++ '.' :: stem.toList.reverse := by simp
    have hrun : '.' ∉ extension.toList.reverse := by simpa using hdot
    refine ⟨_, hname, ?_⟩
    rw [hbackward, Text.takeWhile_ne hrun, Text.dropWhile_ne hrun]
    simp [hstem]

end Path

namespace Config

open Json (Form Piece decodeText)

variable {fs : FileSystem} {path text : String} {value : Json}

/-- A path whose last name ends in the extension of JSON, in letters of either case. -/
def NamedJson (path : String) : Prop :=
  ∃ before stem extension after, Path.names path = before ++ (stem ++ "." ++ extension) :: after ∧
    (∀ other ∈ after, other ∈ ["", "."]) ∧ stem ≠ "" ∧ extension.map Char.toLower = "json"

/-- A member of an object whose key is a text but not that of unwanted types. -/
def OtherMember (member : List Piece × Form) : Prop :=
  ∃ key, decodeText member.1 = some key ∧ key ≠ "skiptypes"

/-- What a JSON document says about unwanted types, as an object with the key or as an array of the
value alone; null if it says nothing. -/
inductive JsonSetting : Form → Json → Prop
  | absent {members : List (List Piece × Form)} : (∀ member ∈ members, OtherMember member) →
      JsonSetting (.object members) .null
  | member {before after : List (List Piece × Form)} {pieces : List Piece} {form : Form}
      {value : Json} :
      (∀ member ∈ before ++ after, OtherMember member) → decodeText pieces = some "skiptypes" →
      form.value innerDepth = some value →
      JsonSetting (.object (before ++ (pieces, form) :: after)) value
  | noItem : JsonSetting (.array []) .null
  | item {form : Form} {value : Json} : form.value innerDepth = some value →
      JsonSetting (.array [form]) value

/-- What a TOML document says about unwanted types; null if it says nothing. -/
inductive TomlSetting : Toml.Value → Json → Prop
  | absent {entries : List (String × Toml.Value)} : "skiptypes" ∉ entries.map Prod.fst →
      TomlSetting (.table entries) .null
  | entry {entries : List (String × Toml.Value)} {value : Toml.Value} :
      findEntry "skiptypes" entries = some value → TomlSetting (.table entries) value.toJson

/-- What the text of the file at a path says about unwanted types. -/
inductive Setting (path text : String) (value : Json) : Prop
  | json {form : Form} : NamedJson path → Form.ofChars? text.toList = some form →
      JsonSetting form value → Setting path text value
  | toml {document : Toml.Value} : ¬ NamedJson path → Toml.parse? text = some document →
      TomlSetting document value → Setting path text value

/-- What loading the file at a path comes to. -/
inductive Loading (fs : FileSystem) (path : String) : Except Failure SkipTypes → Prop
  /-- There is no text at the path. -/
  | unread {fault : Fault} :
      fs.read path = .error fault → Loading fs path (.error (.read path fault))
  /-- The text is no configuration. -/
  | noSetting {text : String} : fs.read path = .ok text → (∀ value, ¬ Setting path text value) →
      Loading fs path (.error (.configurationSyntax path))
  /-- Nothing is said about unwanted types, or null. -/
  | unset {text : String} : fs.read path = .ok text → Setting path text .null →
      Loading fs path (.ok .unset)
  /-- What is said has no meaning. -/
  | refused {text : String} {value : Json} {e : SkipTypesError} : fs.read path = .ok text →
      Setting path text value → SkipTypes.ofJson value = .error e →
      Loading fs path (.error (.configuration path e))
  /-- What is said stands. -/
  | accepted {text : String} {value : Json} {skips : SkipTypes} : fs.read path = .ok text →
      Setting path text value → SkipTypes.ofJson value = .ok skips → Loading fs path (.ok skips)

/-- A text that is JSON in letters of either case has no dot. -/
theorem dot_not_mem_of_json {extension : String} (h : extension.map Char.toLower = "json") :
    '.' ∉ extension.toList := by
  intro hmem
  have hlower : '.' ∈ (extension.map Char.toLower).toList := by
    rw [String.toList_map]
    exact List.mem_map.mpr ⟨'.', hmem, by decide⟩
  rw [h] at hlower
  exact absurd hlower (by decide)

/-- A name with that extension is neither empty nor dots. -/
theorem not_mem_of_json {extension : String} (h : extension.map Char.toLower = "json")
    (stem : String) : stem ++ "." ++ extension ∉ ["", ".", ".."] := by
  have hlength : extension.length = 4 := by
    rw [← String.length_map, h]
    rfl
  have hshort : ∀ name ∈ ["", ".", ".."], name.length ≤ 2 := by decide
  intro hmem
  have hle := hshort _ hmem
  rw [String.length_append, hlength] at hle
  omega

/-- A file is JSON by its name exactly if the name ends in the extension. -/
theorem isJsonPath_iff (path : String) : isJsonPath path = true ↔ NamedJson path := by
  rw [isJsonPath, beq_iff_eq, Option.map_eq_some_iff]
  simp only [Path.extension?_eq_some_iff, Path.lastName?_eq_some_iff]
  constructor
  · rintro ⟨extension, ⟨stem, hstem, ⟨-, before, after, hnames, hafter⟩, -⟩, hjson⟩
    exact ⟨before, stem, extension, after, hnames, hafter, hstem, hjson⟩
  · rintro ⟨before, stem, extension, after, hnames, hafter, hstem, hjson⟩
    have hname : stem ++ "." ++ extension ∉ ["", ".", ".."] := not_mem_of_json hjson stem
    exact ⟨extension,
      ⟨stem, hstem, ⟨hname, before, after, hnames, hafter⟩, dot_not_mem_of_json hjson⟩, hjson⟩

/-- A member with the key is a setting. -/
theorem settings_of_key {pieces : List Piece} (hkey : decodeText pieces = some "skiptypes")
    (form : Form) (rest : List (List Piece × Form)) :
    settings ((pieces, form) :: rest) = (settings rest).map (form :: ·) := by
  cases hrest : settings rest <;> simp [settings, hkey, hrest, skipTypesKey]

/-- Other members are no settings. -/
theorem settings_append {before : List (List Piece × Form)}
    (hothers : ∀ member ∈ before, OtherMember member) (rest : List (List Piece × Form)) :
    settings (before ++ rest) = settings rest := by
  induction before with
  | nil => rfl
  | cons member before ih =>
    obtain ⟨⟨key, hkey, hne⟩, hbefore⟩ := List.forall_mem_cons.mp hothers
    rw [List.cons_append, settings, ih hbefore, hkey]
    simp [skipTypesKey, hne]

/-- The settings of an object are none, or the first of them stands behind other members. -/
theorem settings_cases {members : List (List Piece × Form)} {forms : List Form}
    (h : settings members = some forms) :
    (forms = [] ∧ ∀ member ∈ members, OtherMember member) ∨
      ∃ before pieces form after more, members = before ++ (pieces, form) :: after ∧
        (∀ member ∈ before, OtherMember member) ∧ decodeText pieces = some "skiptypes" ∧
        settings after = some more ∧ forms = form :: more := by
  induction members with
  | nil => exact .inl ⟨(Option.some.inj h).symm, nofun⟩
  | cons member rest ih =>
    obtain ⟨pieces, form⟩ := member
    cases hkey : decodeText pieces with
    | none => simp [settings, hkey] at h
    | some key =>
      by_cases hskip : key = "skiptypes"
      · subst hskip
        rw [settings_of_key hkey] at h
        obtain ⟨more, hmore, rfl⟩ := Option.map_eq_some_iff.mp h
        exact .inr ⟨[], pieces, form, rest, more, rfl, nofun, hkey, hmore, rfl⟩
      · have hother : ∀ member ∈ [(pieces, form)], OtherMember member :=
          List.forall_mem_singleton.mpr ⟨key, hkey, hskip⟩
        rw [← List.singleton_append, settings_append hother] at h
        rw [← List.singleton_append]
        obtain ⟨hnil, hrest⟩ | ⟨before, pieces', form', after, more, rfl, hbefore, hfirst⟩ := ih h
        · exact .inl ⟨hnil, List.forall_mem_append.mpr ⟨hother, hrest⟩⟩
        · exact .inr ⟨_, pieces', form', after, more, (List.append_assoc ..).symm,
            List.forall_mem_append.mpr ⟨hother, hbefore⟩, hfirst⟩

/-- What an object says is the value of the only setting in it. -/
theorem jsonSetting_object_iff (members : List (List Piece × Form)) (value : Json) :
    JsonSetting (.object members) value ↔
      ∃ forms, settings members = some forms ∧ onlyValue forms = some value := by
  constructor
  · intro h
    cases h with
    | absent hothers =>
      have hnone := settings_append hothers []
      rw [List.append_nil] at hnone
      exact ⟨[], hnone, rfl⟩
    | @member before after pieces form _ hothers hkey hvalue =>
      obtain ⟨hbefore, hafter⟩ := List.forall_mem_append.mp hothers
      have hnone := settings_append hafter []
      rw [List.append_nil] at hnone
      refine ⟨[form], ?_, hvalue⟩
      rw [settings_append hbefore, settings_of_key hkey, hnone]
      rfl
  · rintro ⟨forms, hforms, hvalue⟩
    obtain ⟨rfl, hothers⟩ | ⟨before, pieces, form, after, more, rfl, hbefore, hkey, hmore, rfl⟩ :=
      settings_cases hforms
    · obtain rfl := Option.some.inj hvalue
      exact .absent hothers
    · cases more with
      | nil =>
        obtain ⟨-, hafter⟩ | ⟨_, _, _, _, _, _, _, _, _, hcons⟩ := settings_cases hmore
        · exact .member (List.forall_mem_append.mpr ⟨hbefore, hafter⟩) hkey hvalue
        · cases hcons
      | cons second others => cases hvalue

/-- The setting of a JSON document. -/
theorem jsonSetting?_eq_some_iff (text : String) (value : Json) :
    jsonSetting? text = some value ↔
      ∃ form, Form.ofChars? text.toList = some form ∧ JsonSetting form value := by
  rw [jsonSetting?, Option.bind_eq_bind, Option.bind_eq_some_iff]
  refine exists_congr fun form => and_congr_right fun _ => ?_
  cases form with
  | object members =>
    rw [jsonSetting_object_iff, Option.bind_eq_bind, Option.bind_eq_some_iff]
  | array items =>
    constructor
    · intro h
      rcases items with _ | ⟨item, _ | ⟨second, more⟩⟩
      · obtain rfl := Option.some.inj h
        exact .noItem
      · exact .item h
      · cases h
    · intro h
      cases h with
      | noItem => rfl
      | item hvalue => exact hvalue
  | null | bool _ | numeral _ | text _ => exact ⟨nofun, nofun⟩

/-- The setting of a TOML document. -/
theorem tomlSetting?_eq_some_iff (text : String) (value : Json) :
    tomlSetting? text = some value ↔
      ∃ document, Toml.parse? text = some document ∧ TomlSetting document value := by
  rw [tomlSetting?, Option.bind_eq_bind, Option.bind_eq_some_iff]
  refine exists_congr fun document => and_congr_right fun _ => ?_
  cases document with
  | table entries =>
    constructor
    · intro h
      obtain rfl := Option.some.inj h
      cases hfind : findEntry skipTypesKey entries with
      | none => exact .absent ((findEntry_eq_none_iff ..).mp hfind)
      | some found => exact .entry hfind
    · intro h
      cases h with
      | absent hentries =>
        have hfind := (findEntry_eq_none_iff skipTypesKey entries).mpr hentries
        simp only [hfind]
        rfl
      | entry hfind =>
        simp only [skipTypesKey, hfind]
        rfl
  | text _ | integer _ | float _ | bool _ | moment _ | array _ => exact ⟨nofun, nofun⟩

/-- A text is read as its setting. -/
theorem setting_iff (path text : String) (value : Json) :
    (if isJsonPath path then jsonSetting? text else tomlSetting? text) = some value ↔
      Setting path text value := by
  by_cases hjson : NamedJson path
  · rw [if_pos ((isJsonPath_iff path).mpr hjson), jsonSetting?_eq_some_iff]
    constructor
    · rintro ⟨form, hform, hvalue⟩
      exact .json hjson hform hvalue
    · rintro (⟨-, hform, hvalue⟩ | ⟨htoml, -, -⟩)
      · exact ⟨_, hform, hvalue⟩
      · exact absurd hjson htoml
  · rw [if_neg (mt (isJsonPath_iff path).mp hjson), tomlSetting?_eq_some_iff]
    constructor
    · rintro ⟨document, hdocument, hvalue⟩
      exact .toml hjson hdocument hvalue
    · rintro (⟨hjson', -, -⟩ | ⟨-, hdocument, hvalue⟩)
      · exact absurd hjson' hjson
      · exact ⟨_, hdocument, hvalue⟩

/-- A text with a setting gives the unwanted types that the setting describes. -/
theorem Setting.skipTypesOf (h : Setting path text value) :
    skipTypesOf path text = (SkipTypes.ofJson value).mapError (.configuration path) := by
  rw [Config.skipTypesOf, (setting_iff path text value).mpr h]

/-- A text without a setting is no configuration. -/
theorem skipTypesOf_of_no_setting (h : ∀ value, ¬ Setting path text value) :
    skipTypesOf path text = .error (.configurationSyntax path) := by
  have hnone : (if isJsonPath path then jsonSetting? text else tomlSetting? text) = none :=
    Option.eq_none_iff_forall_ne_some.mpr fun value hvalue =>
      h value ((setting_iff path text value).mp hvalue)
  rw [Config.skipTypesOf, hnone]

/-- A file that is read loads as its text does. -/
theorem loaded_of_read (hread : fs.read path = .ok text) :
    loaded fs path = skipTypesOf path text := by
  rw [loaded, hread]
  rfl

/-- Loading a file ends in one of these ways. -/
theorem loading_loaded (fs : FileSystem) (path : String) : Loading fs path (loaded fs path) := by
  cases hread : fs.read path with
  | error fault =>
    rw [loaded, hread]
    exact .unread hread
  | ok text =>
    rw [loaded_of_read hread]
    by_cases hsetting : ∃ value, Setting path text value
    · obtain ⟨value, hvalue⟩ := hsetting
      rw [hvalue.skipTypesOf]
      cases hskips : SkipTypes.ofJson value with
      | error e => exact .refused hread hvalue hskips
      | ok skips => exact .accepted hread hvalue hskips
    · have hnone := not_exists.mp hsetting
      rw [skipTypesOf_of_no_setting hnone]
      exact .noSetting hread hnone

/-- A file is loaded exactly as its text and what that says allow. -/
theorem loaded_eq_iff (fs : FileSystem) (path : String) (result : Except Failure SkipTypes) :
    loaded fs path = result ↔ Loading fs path result := by
  constructor
  · rintro rfl
    exact loading_loaded fs path
  · intro h
    cases h with
    | unread hread =>
      rw [loaded, hread]
      rfl
    | noSetting hread hnone => rw [loaded_of_read hread, skipTypesOf_of_no_setting hnone]
    | unset hread hsetting =>
      rw [loaded_of_read hread, hsetting.skipTypesOf]
      rfl
    | refused hread hsetting hskips =>
      rw [loaded_of_read hread, hsetting.skipTypesOf, hskips]
      rfl
    | accepted hread hsetting hskips =>
      rw [loaded_of_read hread, hsetting.skipTypesOf, hskips]
      rfl

end Config

end TypeSieve
