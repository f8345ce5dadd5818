import TypeSieve.Model.Methods

/-!
# Class descriptions

What a module describes: classes with attributes and methods, and anything else as the JSON value
that it is. The fields of a class that take no part in filtering are kept with it.
-/

namespace TypeSieve

/-- The description of a class. -/
@[ext] structure ClassDescription where
  name : String
  attrs : Dict TypeExpr
  methods : Methods
  extra : Dict Json
  deriving DecidableEq

namespace ClassDescription

/-- A class without members. -/
def ofName (name : String) : ClassDescription := ⟨name, .empty, .empty, .empty⟩

/-- Set an attribute. -/
def withAttr (c : ClassDescription) (name : String) (type : TypeExpr) : ClassDescription :=
  { c with attrs := c.attrs.insert name type }

/-- Set a method. -/
def withMethod (c : ClassDescription) (key : Signature) (returns : Option TypeExpr) :
    ClassDescription :=
  { c with methods := c.methods.insert key returns }

end ClassDescription

/-- What a module describes under one name. -/
inductive Descriptor where
  | ofClass (c : ClassDescription)
  | other (value : Json)
  deriving DecidableEq

namespace Descriptor

/-- The class that is described. -/
def class? : Descriptor → Option ClassDescription
  | .ofClass c => some c
  | .other _ => none

/-- Change the class that is described. -/
def mapClass (f : ClassDescription → ClassDescription) : Descriptor → Descriptor
  | .ofClass c => .ofClass (f c)
  | .other value => .other value

end Descriptor

end TypeSieve
