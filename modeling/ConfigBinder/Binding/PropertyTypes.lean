/-
Properties grouped by name.

A property may be injected as several types, and must convert to each.  The types
are found by name at startup, so each one that is not primitive stays reachable, and
is asked for once.
-/
import ConfigBinder.Build.Collected

namespace ConfigBinder

/-- The properties with one more type for a name. -/
def PropertyTypes.add (m : PropertyTypes) (property type : String) : PropertyTypes :=
  m.insert property (((m.get? property).getD ∅).insert type)

/-- The types of each property. -/
def PropertyTypes.ofPairs (pairs : List (String × String)) : PropertyTypes :=
  pairs.foldl (fun m p => m.add p.1 p.2) ∅

namespace ConfigProperty

/-- The name of the type that a property must convert to. -/
def typeName (p : ConfigProperty) : String := p.requiredType.outerName.text

/-- Properties grouped by name. -/
def group (properties : List ConfigProperty) : PropertyTypes :=
  PropertyTypes.ofPairs (properties.map fun p => (p.name, p.typeName))

/-- The names of types that are not primitive, in the order of their first
occurrence, without those seen before. -/
def lookedUp (seen : List String) : List ConfigProperty → List String
  | [] => []
  | p :: rest =>
    if p.requiredType.isPrimitive || seen.contains p.typeName then lookedUp seen rest
    else p.typeName :: lookedUp (p.typeName :: seen) rest

/-- The classes that the startup check looks up. -/
def reflective (properties : List ConfigProperty) : List ReflectiveClass :=
  (lookedUp [] properties).map .lookupOnly

end ConfigProperty

end ConfigBinder
