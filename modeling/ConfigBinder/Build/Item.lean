/-
What a binding pass produces besides components.
-/
import ConfigBinder.Build.Component
import ConfigBinder.Ordered.Set

namespace ConfigBinder

/-- A class that the container must discover. -/
structure AdditionalComponent where
  componentClass : QualifiedName
  deriving DecidableEq

/-- A class that stays reachable by name at run time, with its constructors or its
methods or neither. -/
structure ReflectiveClass where
  className : String
  constructors : Bool
  methods : Bool
  deriving DecidableEq

namespace ReflectiveClass

/-- A class reachable by name alone. -/
def lookupOnly (name : String) : ReflectiveClass := ⟨name, false, false⟩

/-- A class that can be instantiated. -/
def withConstructors (name : String) : ReflectiveClass := ⟨name, true, false⟩

/-- A class whose methods can be called. -/
def withMethods (name : String) : ReflectiveClass := ⟨name, false, true⟩

end ReflectiveClass

/-- A generated implementation, for the runtime to load. -/
structure GeneratedClass where
  name : String
  bytes : List UInt8
  sourceInterface : QualifiedName
  /-- Whether the application's class loader loads it. -/
  applicationClass : Bool
  deriving DecidableEq

/-- A configuration property that is checked at startup. -/
structure ConfigProperty where
  name : String
  requiredType : TypeRef
  deriving DecidableEq

/-- A mapping interface that is bound to the keys under a prefix. -/
structure ConfigMapping where
  interface : QualifiedName
  keyPrefix : String
  /-- The generated implementations, one per group. -/
  implementations : List String
  deriving DecidableEq

/-- The properties with the names of all types that each is injected as. -/
abbrev PropertyTypes := OrderedMap String (OrderedSet String)

end ConfigBinder
