import TypeSieve.Model.Environment
import TypeSieve.Proofs.Dict

/-!
# Places in a model

A descriptor is found by the name of its module and its entity name. Changing every class acts on
each place separately and leaves the names of modules and entities and all other descriptors alone.
A model is determined by its module names, the entity names of each module and the descriptors
found.
-/

namespace TypeSieve

namespace Descriptor

/-- Changing the class of a descriptor changes the class that is described, if there is one. -/
@[simp] theorem class?_mapClass (f : ClassDescription → ClassDescription) (d : Descriptor) :
    (d.mapClass f).class? = d.class?.map f := by
  cases d <;> rfl

/-- A descriptor that is no class stays what it was, and no class becomes one. -/
theorem mapClass_eq_other_iff (f : ClassDescription → ClassDescription) (d : Descriptor)
    (value : Json) : d.mapClass f = .other value ↔ d = .other value := by
  cases d <;> simp [mapClass]

/-- Changing every class by the function that changes nothing keeps a descriptor. -/
theorem mapClass_id (d : Descriptor) : d.mapClass (fun c => c) = d := by
  cases d <;> rfl

end Descriptor

namespace Environment

variable (env : Environment) (f : String → ClassDescription → ClassDescription)

/-- Changing classes keeps the module names. -/
@[simp] theorem moduleNames_mapClasses : (env.mapClasses f).moduleNames = env.moduleNames :=
  Dict.keys_map _ _

/-- The module of a name after changing classes. -/
@[simp] theorem module?_mapClasses (module : String) :
    (env.mapClasses f).module? module =
      (env.module? module).map fun descriptors => descriptors.map fun _ d =>
        d.mapClass (f module) :=
  Dict.get?_map _ _ _

/-- The descriptor at a place after changing classes. -/
@[simp] theorem descriptor?_mapClasses (module entity : String) :
    (env.mapClasses f).descriptor? module entity =
      (env.descriptor? module entity).map (Descriptor.mapClass (f module)) := by
  cases hmodule : env.module? module with
  | none => simp [descriptor?, hmodule]
  | some descriptors => simp [descriptor?, hmodule]

/-- The class at a place after changing classes. -/
@[simp] theorem class?_mapClasses (module entity : String) :
    (env.mapClasses f).class? module entity = (env.class? module entity).map (f module) := by
  cases hplace : env.descriptor? module entity with
  | none => simp [class?, hplace]
  | some d => simp [class?, hplace]

/-- The entity names of a module, if there is such a module. -/
def entityNames (module : String) : Option (List String) := (env.module? module).map Dict.keys

/-- Changing classes keeps the entity names of each module. -/
@[simp] theorem entityNames_mapClasses (module : String) :
    (env.mapClasses f).entityNames module = env.entityNames module := by
  simp [entityNames, Function.comp_def]

/-- A place holds the class that its descriptor describes. -/
theorem class?_eq_some_iff (module entity : String) (c : ClassDescription) :
    env.class? module entity = some c ↔ env.descriptor? module entity = some (.ofClass c) := by
  rw [class?, Option.bind_eq_some_iff]
  constructor
  · intro h
    obtain ⟨d, hplace, hclass⟩ := h
    cases d with
    | ofClass found =>
      obtain rfl : found = c := by simpa [Descriptor.class?] using hclass
      exact hplace
    | other value => simp [Descriptor.class?] at hclass
  · intro hplace
    exact ⟨.ofClass c, hplace, rfl⟩

/-- There is a descriptor at a place exactly when the module has the entity name. -/
theorem descriptor?_eq_none_iff (module entity : String) :
    env.descriptor? module entity = none ↔ ∀ names ∈ env.entityNames module, entity ∉ names := by
  cases hmodule : env.module? module with
  | none => simp [descriptor?, entityNames, hmodule]
  | some descriptors => simp [descriptor?, entityNames, hmodule, Dict.get?_eq_none_iff]

/-- Two models with the same modules, the same entity names in each and the same descriptor at every
place are equal. -/
theorem ext_descriptor? {a b : Environment}
    (hnames : ∀ module, a.entityNames module = b.entityNames module)
    (hplaces : ∀ module entity, a.descriptor? module entity = b.descriptor? module entity) :
    a = b := by
  apply Environment.ext
  refine Dict.ext_get? fun module => ?_
  have hname := hnames module
  have hplace := hplaces module
  change a.module? module = b.module? module
  cases ha : a.module? module with
  | none =>
    cases hb : b.module? module with
    | none => rfl
    | some right => simp [entityNames, ha, hb] at hname
  | some left =>
    cases hb : b.module? module with
    | none => simp [entityNames, ha, hb] at hname
    | some right =>
      congr 1
      exact Dict.ext_get? fun entity => by simpa [descriptor?, ha, hb] using hplace entity

/-- Two changes that do the same to every class of a model leave the same model. -/
theorem mapClasses_congr {env : Environment} {f g : String → ClassDescription → ClassDescription}
    (h : ∀ module entity c, env.class? module entity = some c → f module c = g module c) :
    env.mapClasses f = env.mapClasses g := by
  refine ext_descriptor? (fun module => by simp) fun module entity => ?_
  rw [descriptor?_mapClasses, descriptor?_mapClasses]
  cases hplace : env.descriptor? module entity with
  | none => rfl
  | some d =>
    cases d with
    | ofClass c =>
      have hclass := h module entity c ((env.class?_eq_some_iff module entity c).mpr hplace)
      rw [Option.map_some, Option.map_some, Descriptor.mapClass, Descriptor.mapClass, hclass]
    | other value => rfl

/-- The classes of a visit are those at the places of the model. -/
theorem mem_classes_iff (module : String) (c : ClassDescription) :
    (module, c) ∈ env.classes ↔ ∃ entity, env.class? module entity = some c := by
  simp only [classes, classesIn, Dict.values, List.mem_flatMap, List.mem_map, List.mem_filterMap,
    class?_eq_some_iff, descriptor?, module?, Option.bind_eq_some_iff, Dict.get?_eq_some_iff]
  constructor
  · intro h
    obtain ⟨⟨module, descriptors⟩, hmodule, found,
      ⟨d, ⟨⟨entity, d⟩, hentity, rfl⟩, hclass⟩, heq⟩ := h
    obtain ⟨rfl, rfl⟩ := Prod.mk.inj heq
    cases d with
    | ofClass c =>
      obtain rfl := Option.some.inj hclass
      exact ⟨entity, descriptors, hmodule, hentity⟩
    | other value => cases hclass
  · intro h
    obtain ⟨entity, descriptors, hmodule, hentity⟩ := h
    exact ⟨(module, descriptors), hmodule, c,
      ⟨.ofClass c, ⟨(entity, .ofClass c), hentity, rfl⟩, rfl⟩, rfl⟩

/-- Changing no class keeps the model. -/
theorem mapClasses_id : (env.mapClasses fun _ c => c) = env := by
  refine ext_descriptor? (fun module => env.entityNames_mapClasses _ module) fun module entity => ?_
  rw [descriptor?_mapClasses]
  cases env.descriptor? module entity with
  | none => rfl
  | some d => rw [Option.map_some, Descriptor.mapClass_id]

/-- Changing classes twice is changing them once. -/
theorem mapClasses_mapClasses (g : String → ClassDescription → ClassDescription) :
    (env.mapClasses f).mapClasses g = env.mapClasses fun module c => g module (f module c) := by
  refine ext_descriptor? (fun module => by simp) fun module entity => ?_
  rw [descriptor?_mapClasses, descriptor?_mapClasses, descriptor?_mapClasses, Option.map_map]
  refine congrArg (Option.map · _) (funext fun d => ?_)
  cases d <;> rfl

/-- The classes of a model after changing classes, in the same order. -/
theorem classes_mapClasses :
    (env.mapClasses f).classes = env.classes.map fun place => (place.1, f place.1 place.2) := by
  change ((env.modules.entries.map _).flatMap _) = (env.modules.entries.flatMap _).map _
  rw [List.flatMap_map, List.map_flatMap]
  refine List.flatMap_congr fun entry _ => ?_
  change (((entry.2.entries.map _).map Prod.snd).filterMap Descriptor.class?).map _ = _
  rw [classesIn, Dict.values]
  induction entry.2.entries with
  | nil => rfl
  | cons place rest ih =>
    obtain ⟨entity, d⟩ := place
    cases d with
    | ofClass c => exact congrArg (List.cons (entry.1, f entry.1 c)) ih
    | other value => exact ih

end Environment

end TypeSieve
