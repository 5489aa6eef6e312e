/-
Components for types that the built-in producer does not supply.

A provider converts a configuration value to its type.  The class of the type backs
it, so that class must stay open for construction by name; an array has no class of
its own, and the converting creator backs it.
-/
import ConfigBinder.Binding.Classification
import ConfigBinder.Build.Collected

namespace ConfigBinder

namespace Provider

/-- The parameter that holds the name of the type to convert to. -/
def requiredTypeParam : String := "requiredType"

/-- The class behind the provider of a type. -/
def implementation (settings : Settings) (t : TypeRef) : QualifiedName :=
  if t.isArray then settings.beanCreator else t.outerName

/-- The provider of a type. -/
def component (settings : Settings) (t : TypeRef) : Component :=
  Component.build (implementation settings t)
    [.providerType t, .addType t, .addQualifier settings.propertyQualifier,
      .creator (.bean settings.beanCreator), .param requiredTypeParam (.text t.outerName.text)]

/-- The classes that the providers of types construct by name. -/
def reflective (types : List TypeRef) : List ReflectiveClass :=
  (types.filter fun t => !t.isArray).map fun t =>
    ReflectiveClass.withConstructors t.outerName.text

/-- What registering the providers of types adds. -/
def register (settings : Settings) (types : List TypeRef) : Collected :=
  { (∅ : Collected) with
    synthetic := types.map (component settings)
    reflective := reflective types }

end Provider

/-! ### Configuration roots -/

namespace RootComponent

/-- The component that a root stands behind, none for one that only the build sees. -/
def ofRoot? (root : ConfigRoot) : Option Component :=
  if root.phase.isRuntimeVisible then
    some (Component.build root.rootClass
      [.addType (.named root.rootClass), .scope .dependent,
        .creator (.root root.rootClass root.phase)])
  else none

/-- The components of the roots that exist at run time. -/
def ofRoots (roots : List ConfigRoot) : List Component := roots.filterMap ofRoot?

end RootComponent

end ConfigBinder
