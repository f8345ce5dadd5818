import TypeSieve.Proofs.Model.Places

/-!
# The members of a model

Every attribute and every method of a model with the place of its class, in the order of a visit:
modules by name, entities by name, and in a class the attributes by name before the methods in their
order. No member is listed twice.
-/

namespace TypeSieve

/-- A member of a class with the types in it. -/
inductive ClassMember where
  | attr (name : String) (type : TypeExpr)
  | method (entry : MethodEntry)
  deriving DecidableEq

/-- A member of a class with the names of the module, the entity and the class. -/
structure PlacedMember where
  module : String
  entity : String
  className : String
  member : ClassMember
  deriving DecidableEq

namespace ClassDescription

/-- The attributes of a class by name and its methods in declaration order. -/
def members (c : ClassDescription) : List ClassMember :=
  c.attrs.entries.map (fun entry => .attr entry.1 entry.2) ++ c.methods.entries.map .method

/-- No member of a class is listed twice. -/
theorem nodup_members (c : ClassDescription) : c.members.Nodup := by
  rw [members, List.nodup_append]
  refine ⟨?_, ?_, ?_⟩
  · refine List.Nodup.map ?_ c.attrs.ascending.nodup_keys.of_map
    intro a b heq
    exact Prod.ext (ClassMember.attr.inj heq).1 (ClassMember.attr.inj heq).2
  · exact c.methods.distinct.of_map.map fun a b heq => ClassMember.method.inj heq
  · intro a ha b hb heq
    obtain ⟨entry, -, rfl⟩ := List.mem_map.mp ha
    obtain ⟨entry', -, rfl⟩ := List.mem_map.mp hb
    cases heq

end ClassDescription

namespace Environment

/-- The members that a descriptor brings to its place. -/
def membersAt (module entity : String) (d : Descriptor) : List PlacedMember :=
  match d.class? with
  | some c => c.members.map fun member => ⟨module, entity, c.name, member⟩
  | none => []

/-- The members of a module. -/
def membersIn (module : String) (descriptors : Dict Descriptor) : List PlacedMember :=
  descriptors.entries.flatMap fun entry => membersAt module entry.1 entry.2

/-- The members of a model in the order of a visit. -/
def members (env : Environment) : List PlacedMember :=
  env.modules.entries.flatMap fun entry => membersIn entry.1 entry.2

/-- The members that a class brings to its place. -/
theorem membersAt_ofClass (module entity : String) (c : ClassDescription) :
    membersAt module entity (.ofClass c) =
      c.members.map fun member => ⟨module, entity, c.name, member⟩ := rfl

/-- The members of a model after changing classes. -/
theorem members_mapClasses (env : Environment) (f : String → ClassDescription → ClassDescription) :
    (env.mapClasses f).members =
      env.modules.entries.flatMap fun entry => entry.2.entries.flatMap fun place =>
        membersAt entry.1 place.1 (place.2.mapClass (f entry.1)) := by
  change ((env.modules.entries.map fun entry => _).flatMap fun entry => _) = _
  rw [List.flatMap_map]
  refine List.flatMap_congr fun entry _ => ?_
  change ((entry.2.entries.map fun place => _).flatMap fun place => _) = _
  rw [List.flatMap_map]

/-- A member at a place names the place. -/
theorem mem_membersAt_iff (module entity : String) (d : Descriptor) (p : PlacedMember) :
    p ∈ membersAt module entity d ↔ p.module = module ∧ p.entity = entity ∧
      ∃ c, d.class? = some c ∧ p.className = c.name ∧ p.member ∈ c.members := by
  obtain ⟨pm, pe, pc, member⟩ := p
  cases hclass : d.class? with
  | none => simp [membersAt, hclass]
  | some c =>
    simp only [membersAt, hclass, List.mem_map, PlacedMember.mk.injEq, Option.some.injEq,
      exists_eq_left']
    constructor
    · intro h
      obtain ⟨found, hmem, rfl, rfl, rfl, rfl⟩ := h
      exact ⟨rfl, rfl, rfl, hmem⟩
    · intro h
      obtain ⟨rfl, rfl, rfl, hmem⟩ := h
      exact ⟨member, hmem, rfl, rfl, rfl, rfl⟩

/-- The members of a model are those of the classes at its places. -/
theorem mem_members_iff (env : Environment) (p : PlacedMember) :
    p ∈ env.members ↔
      ∃ c, env.class? p.module p.entity = some c ∧ p.className = c.name ∧ p.member ∈ c.members := by
  simp only [members, membersIn, List.mem_flatMap, mem_membersAt_iff, class?_eq_some_iff,
    descriptor?, module?, Option.bind_eq_some_iff, Dict.get?_eq_some_iff]
  constructor
  · intro h
    obtain ⟨⟨module, descriptors⟩, hmodule, ⟨entity, d⟩, hentity, rfl,
      rfl, c, hclass, hname, hmem⟩ := h
    cases d with
    | ofClass found =>
      obtain rfl : found = c := by simpa [Descriptor.class?] using hclass
      exact ⟨found, ⟨descriptors, hmodule, hentity⟩, hname, hmem⟩
    | other value => simp [Descriptor.class?] at hclass
  · intro h
    obtain ⟨c, ⟨descriptors, hmodule, hentity⟩, hname, hmem⟩ := h
    exact ⟨(p.module, descriptors), hmodule, (p.entity, .ofClass c), hentity, rfl, rfl, c, rfl,
      hname, hmem⟩

/-- No member of a model is listed twice. -/
theorem nodup_members (env : Environment) : env.members.Nodup := by
  rw [members, List.nodup_flatMap]
  constructor
  · intro entry _
    obtain ⟨module, descriptors⟩ := entry
    rw [membersIn, List.nodup_flatMap]
    constructor
    · intro place _
      obtain ⟨entity, d⟩ := place
      cases hclass : d.class? with
      | none => simp [membersAt, hclass]
      | some c =>
        simp only [membersAt, hclass]
        exact c.nodup_members.map fun a b heq => (PlacedMember.mk.inj heq).2.2.2
    · refine descriptors.ascending.imp fun {a b} hlt p ha hb => ?_
      have hleft := ((mem_membersAt_iff module a.1 a.2 p).mp ha).2.1
      have hright := ((mem_membersAt_iff module b.1 b.2 p).mp hb).2.1
      exact String.lt_irrefl b.1 (hleft.symm.trans hright ▸ hlt)
  · refine env.modules.ascending.imp fun {a b} hlt p ha hb => ?_
    obtain ⟨entry, -, hentry⟩ := List.mem_flatMap.mp ha
    obtain ⟨entry', -, hentry'⟩ := List.mem_flatMap.mp hb
    have hleft := ((mem_membersAt_iff a.1 entry.1 entry.2 p).mp hentry).1
    have hright := ((mem_membersAt_iff b.1 entry'.1 entry'.2 p).mp hentry').1
    exact String.lt_irrefl b.1 (hleft.symm.trans hright ▸ hlt)

end Environment

end TypeSieve
