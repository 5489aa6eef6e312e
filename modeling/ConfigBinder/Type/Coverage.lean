/-
Which types the built-in value producer supplies.

It supplies the primitive types and a fixed list of classes, with whatever type
arguments; never an array.  Four of the classes are optional wrappers: a value that
is asked for through one of them may be missing.
-/
import ConfigBinder.Type.Ref

namespace ConfigBinder.TypeRef

/-- The wrappers around a value that may be missing. -/
def optionalWrappers : List String :=
  ["java.util.Optional", "java.util.OptionalInt", "java.util.OptionalLong",
    "java.util.OptionalDouble"]

/-- The classes that the built-in producer supplies. -/
def suppliedClasses : List String :=
  ["java.lang.String", "java.util.Set", "java.util.List", "java.lang.Boolean",
    "java.lang.Byte", "java.lang.Short", "java.lang.Integer", "java.lang.Long",
    "java.lang.Float", "java.lang.Double", "java.lang.Character"] ++ optionalWrappers

/-- Whether the built-in producer supplies values of the type. -/
def isSupplied : TypeRef → Bool
  | .primitive _ => true
  | .named n => suppliedClasses.contains n.text
  | .applied n _ => suppliedClasses.contains n.text
  | .array _ => false

/-- Whether the type wraps a value that may be missing. -/
def isOptional : TypeRef → Bool
  | .named n => optionalWrappers.contains n.text
  | .applied n _ => optionalWrappers.contains n.text
  | _ => false

end ConfigBinder.TypeRef
