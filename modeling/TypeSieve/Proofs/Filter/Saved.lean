import TypeSieve.Proofs.Filter.Effect
import TypeSieve.Proofs.Model.SavedModels

/-!
# Saving filtered models

A pass takes attributes and methods away and changes none of those it keeps, so what it leaves of a
model that was read is again a model that what is written for it is read as.
-/

namespace TypeSieve

namespace Filter

variable {depth : Nat}

/-- Filtering keeps a class loaded. -/
theorem loaded_filterClass {c : ClassDescription} (h : c.Loaded depth) (m : Matcher)
    (patterns : List TypeExpr) : (filterClass m patterns c).Loaded depth := by
  refine ⟨fun entry hentry => ?_, fun entry hentry => ?_, h.extra⟩
  · exact h.attrs entry (List.mem_filter.mp hentry).1
  · exact h.methods entry (List.mem_filter.mp hentry).1

/-- A pass keeps a class loaded. -/
theorem loaded_treat {c : ClassDescription} (h : c.Loaded depth) (f : Filter) :
    (f.treat c).Loaded depth := by
  by_cases hcovers : f.skips.Covers c.name
  · obtain ⟨patterns, happlies⟩ := hcovers
    rw [treat_of_applies happlies]
    exact loaded_filterClass h f.matcher patterns
  · rw [treat_of_not_covers hcovers]
    exact h

/-- A pass keeps a model loaded. -/
theorem loaded_apply {env : Environment} (h : env.Loaded depth) (f : Filter) :
    (f.apply env).Loaded depth := by
  intro module entity d hplace
  rw [apply_eq_mapClasses, Environment.descriptor?_mapClasses] at hplace
  obtain ⟨before, hbefore, rfl⟩ := Option.map_eq_some_iff.mp hplace
  have hloaded := h module entity before hbefore
  cases before with
  | ofClass c => exact loaded_treat hloaded f
  | other value => exact hloaded

/-- A model that was read from a value without binary64 numbers and with a nesting that texts may
have is, after any pass, read back from what is written for it: from the value, from its compact
text and from its pretty text. If nothing is configured, this is the model that was read. -/
theorem read_back_of_apply (f : Filter) {value : Json} {env : Environment}
    (hplain : value.Plain Json.depthLimit) (hread : Environment.ofJson value = .ok env) :
    Environment.ofJson (f.apply env).toJson.sorted = .ok (f.apply env) ∧
      Environment.parse (f.apply env).toJson.compact = .ok (f.apply env) ∧
      Environment.parse (f.apply env).text = .ok (f.apply env) ∧
      (f.skips = .unset → f.apply env = env) := by
  -- From the model down to the types of parameters, seven levels have a fixed shape.
  have hlimit : Json.depthLimit = 120 + 7 := rfl
  rw [hlimit] at hplain
  have hloaded := f.loaded_apply (Environment.loaded_of_ofJson hread hplain)
  obtain ⟨hvalue, hcompact, htext⟩ := hloaded.readBack (by decide)
  exact ⟨hvalue, hcompact, htext, (f.effect_apply env).idle⟩

/-- A value with an array extent, a default of null, a method entry in array form, a field beside
those of a class, and a descriptor that is no class. -/
def shapes : Json :=
  .object [("geometry", .object [
    ("Shape", .object [
      ("attrs", .object [("dims", .array [.string "int32", .integer 3]), ("x", .string "float64")]),
      ("methods", .array [
        .object [("name", .string "scale"),
          ("params", .array [
            .object [("default", .null), ("name", .string "by"), ("type", .string "int32")]]),
          ("returns", .string "int32")],
        .array [.string "Shape"]]),
      ("name", .string "Shape"),
      ("parents", .array [.string "Base"])]),
    ("unit", .object [("value", .integer 3)])])]

/-- The model that is read from this value. -/
def shapesModel : Environment :=
  ⟨.ofList [("geometry", .ofList [
    ("Shape", .ofClass {
      name := "Shape"
      attrs := .ofList [("dims", .tuple [.leaf "int32", .literal "3"]), ("x", .leaf "float64")]
      methods := ⟨[(⟨"scale", [⟨"by", .leaf "int32", some "null"⟩]⟩, some (.leaf "int32")),
        (⟨"Shape", []⟩, none)], by decide⟩
      extra := .ofList [("parents", .array [.string "Base"])] }),
    ("unit", .other (.object [("value", .integer 3)]))])]⟩

/-- The filter that takes away what has a certain type. -/
def withoutFloat64 : Filter := ofSkips (.global [.leaf "float64"])

/-- The model of the shapes loses an attribute and is read back without it. -/
theorem read_back_of_apply_shapes :
    shapes.Plain Json.depthLimit ∧ Environment.ofJson shapes = .ok shapesModel ∧
      withoutFloat64.apply shapesModel ≠ shapesModel ∧
      Environment.parse (withoutFloat64.apply shapesModel).text =
        .ok (withoutFloat64.apply shapesModel) := by
  have hexact : shapes.Exact Json.depthLimit := by
    simp [shapes, Json.depthLimit, Json.Exact, Json.ExactItems, Json.ExactMembers, Json.InWord,
      Json.Numeral.wordMax]
  have hordered : shapes.Ordered := by
    simp [shapes, Json.Ordered, Json.OrderedItems, Json.OrderedMembers]
    decide
  have hread : Environment.ofJson shapes = .ok shapesModel := rfl
  have hchanged : withoutFloat64.apply shapesModel ≠ shapesModel := by decide +kernel
  have hback := read_back_of_apply withoutFloat64 ⟨hexact, hordered⟩ hread
  exact ⟨⟨hexact, hordered⟩, hread, hchanged, hback.2.2.1⟩

end Filter

end TypeSieve
