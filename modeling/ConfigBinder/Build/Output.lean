/-
What a binding pass hands over.

The container's builder gets the collected items; the startup gets a plan: the types
to check each property against, and the mappings to register.
-/
import ConfigBinder.Build.Collected

namespace ConfigBinder

/-- A mapping interface with the prefix that it is registered under. -/
structure MappingBinding where
  interface : QualifiedName
  keyPrefix : String
  deriving DecidableEq, Repr, Inhabited

namespace MappingBinding

/-- Bindings are ordered by interface, then by prefix. -/
instance : Ord MappingBinding :=
  ⟨compareLex (compareOn MappingBinding.interface) (compareOn MappingBinding.keyPrefix)⟩

instance : Std.TransOrd MappingBinding :=
  inferInstanceAs (Std.TransCmp
    (compareLex (compareOn MappingBinding.interface) (compareOn MappingBinding.keyPrefix)))

instance : Std.LawfulEqOrd MappingBinding where
  compare_self {a} :=
    (inferInstance : Std.ReflCmp
      (compareLex (compareOn MappingBinding.interface)
        (compareOn MappingBinding.keyPrefix))).compare_self (a := a)
  eq_of_compare {a b} h := by
    cases a
    cases b
    simp only [compare, compareLex, compareOn, Ordering.then_eq_eq] at h
    exact (mk.injEq ..).mpr
      ⟨Std.LawfulEqOrd.eq_of_compare h.1, Std.LawfulEqOrd.eq_of_compare h.2⟩

/-- The binding of a mapping. -/
def ofMapping (m : ConfigMapping) : MappingBinding := ⟨m.interface, m.keyPrefix⟩

/-- The distinct bindings of a list of mappings. -/
def ofMappings (mappings : List ConfigMapping) : OrderedSet MappingBinding :=
  OrderedSet.ofList (mappings.map ofMapping)

end MappingBinding

/-- What the startup has to do. -/
structure StartupPlan where
  /-- The types that each property must convert to. -/
  propertyTypes : PropertyTypes
  /-- The mappings to register. -/
  mappings : OrderedSet MappingBinding
  deriving DecidableEq, Inhabited

/-- The plan for grouped properties and generated mappings. -/
def StartupPlan.ofMappings (propertyTypes : PropertyTypes) (mappings : List ConfigMapping) :
    StartupPlan :=
  ⟨propertyTypes, MappingBinding.ofMappings mappings⟩

/-- All that a pass produces. -/
structure BuildOutput where
  items : Collected
  plan : StartupPlan
  deriving DecidableEq

namespace BuildOutput

/-- The type that a component supplies by conversion, array levels taken off. -/
def providedBy (c : Component) : Option QualifiedName :=
  match c.creator with
  | .bean _ =>
    let t := c.providerType.core
    if t.isPrimitive then none else some t.outerName
  | _ => none

/-- The names of the types that synthetic components supply by conversion.  Primitive
types are left out: they can always be converted. -/
def providedTypes (o : BuildOutput) : OrderedSet QualifiedName :=
  OrderedSet.ofList (o.items.synthetic.filterMap providedBy)

end BuildOutput

end ConfigBinder
