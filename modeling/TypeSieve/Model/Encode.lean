import TypeSieve.Model.Environment

/-!
# Writing description models

A model is written in the shape in which it is read, methods and parameters as objects. A class has
its name, attributes and methods first and its other fields in key order after them. A missing
return type and a missing default are left out.
-/

namespace TypeSieve

namespace Param

/-- Write a parameter. -/
def toJson (p : Param) : Json :=
  .object ([("name", .string p.name), ("type", p.type.toJson)] ++
    (p.default?.map fun value => ("default", value)).toList)

end Param

namespace Methods

/-- Write a method. -/
def entryToJson (entry : MethodEntry) : Json :=
  .object ([("name", .string entry.1.name), ("params", .array (entry.1.params.map Param.toJson))] ++
    (entry.2.map fun returns => ("returns", returns.toJson)).toList)

/-- Write a method list. -/
def toJson (m : Methods) : Json := .array (m.entries.map entryToJson)

end Methods

namespace ClassDescription

/-- Write a class. -/
def toJson (c : ClassDescription) : Json :=
  .object ([("name", .string c.name), ("attrs", .ofDict (c.attrs.map fun _ type => type.toJson)),
    ("methods", c.methods.toJson)] ++ c.extra.entries)

end ClassDescription

namespace Descriptor

/-- Write a descriptor. -/
def toJson : Descriptor → Json
  | .ofClass c => c.toJson
  | .other value => value

end Descriptor

namespace Environment

/-- Write the descriptors of a module. -/
def moduleToJson (descriptors : Dict Descriptor) : Json :=
  .ofDict (descriptors.map fun _ d => d.toJson)

/-- Write a model. -/
def toJson (env : Environment) : Json :=
  .ofDict (env.modules.map fun _ module => moduleToJson module)

/-- The text of a model: its pretty form and a line break. -/
def text (env : Environment) : String := env.toJson.pretty ++ "\n"

end Environment

end TypeSieve
