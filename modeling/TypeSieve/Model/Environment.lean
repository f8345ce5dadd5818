import TypeSieve.Model.Description

/-!
# Environments

The whole description model: modules by name, and in each module descriptors by name. A class is
stored under an entity name that need not be the name in its description. Classes are visited by
module name, then entity name.
-/

namespace TypeSieve

/-- A description model. -/
@[ext] structure Environment where
  modules : Dict (Dict Descriptor)
  deriving DecidableEq

namespace Environment

/-- The model without modules. -/
def empty : Environment := ⟨.empty⟩

/-- The descriptors of a module. -/
def module? (env : Environment) (name : String) : Option (Dict Descriptor) := env.modules.get? name

/-- The descriptor at a place. -/
def descriptor? (env : Environment) (module entity : String) : Option Descriptor :=
  (env.module? module).bind (·.get? entity)

/-- The class at a place. -/
def class? (env : Environment) (module entity : String) : Option ClassDescription :=
  (env.descriptor? module entity).bind Descriptor.class?

/-- The module names in order. -/
def moduleNames (env : Environment) : List String := env.modules.keys

/-- Put a descriptor at a place, adding the module if there is none. -/
def insert (env : Environment) (module entity : String) (d : Descriptor) : Environment :=
  ⟨env.modules.insert module (((env.module? module).getD .empty).insert entity d)⟩

/-- Put a class under its own name. -/
def insertClass (env : Environment) (module : String) (c : ClassDescription) : Environment :=
  env.insert module c.name (.ofClass c)

/-- The classes of a module in entity order. -/
def classesIn (descriptors : Dict Descriptor) : List ClassDescription :=
  descriptors.values.filterMap Descriptor.class?

/-- Every class with the name of its module, in visiting order. -/
def classes (env : Environment) : List (String × ClassDescription) :=
  env.modules.entries.flatMap fun entry => (classesIn entry.2).map fun c => (entry.1, c)

/-- Change every class, knowing its module. -/
def mapClasses (env : Environment) (f : String → ClassDescription → ClassDescription) :
    Environment :=
  ⟨env.modules.map fun module descriptors => descriptors.map fun _ d => d.mapClass (f module)⟩

/-- Give another name to every class of a module that has the name of the class at a place; the
entity names stay. -/
def renameClass (env : Environment) (module entity name : String) : Environment :=
  match env.class? module entity with
  | none => env
  | some target => env.mapClasses fun place c =>
    if place = module ∧ c.name = target.name then { c with name := name } else c

/-- How many classes such a renaming concerns. -/
def renameCount (env : Environment) (module entity : String) : Nat :=
  match env.class? module entity with
  | none => 0
  | some target =>
    (env.classes.filter fun c => decide (c.1 = module) && decide (c.2.name = target.name)).length

/-- Two dictionaries have the same keys with agreeing values. -/
def entriesAgree {α : Type} (agree : α → α → Bool) : List (String × α) → List (String × α) → Bool
  | [], [] => true
  | (k, a) :: as, (l, b) :: bs => k == l && agree a b && entriesAgree agree as bs
  | _, _ => false

/-- Two descriptors are equal up to the sign of zeros in what is kept as JSON. -/
def descriptorsAgree : Descriptor → Descriptor → Bool
  | .ofClass a, .ofClass b =>
    a.name == b.name && a.attrs == b.attrs && a.methods == b.methods &&
      entriesAgree Json.agrees a.extra.entries b.extra.entries
  | .other a, .other b => a.agrees b
  | _, _ => false

/-- Two models are equal up to the sign of zeros in what is kept as JSON. -/
def agrees (a b : Environment) : Bool :=
  entriesAgree (fun x y => entriesAgree descriptorsAgree x.entries y.entries) a.modules.entries
    b.modules.entries

end Environment

end TypeSieve
