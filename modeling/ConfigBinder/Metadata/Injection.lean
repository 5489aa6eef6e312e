/-
Injection points and annotations.

An injection point is a place of the analysed program that asks for a value, with
the qualifiers that say what value.  An annotation carries the attributes that are
set explicitly.
-/
import ConfigBinder.Ordered.Map
import ConfigBinder.Type.Ref

namespace ConfigBinder

/-- An annotation or qualifier with its explicit attributes. -/
structure Annotation where
  name : QualifiedName
  values : OrderedMap String String
  deriving DecidableEq

/-- The attribute of an annotation, none when it was left at its default. -/
def Annotation.value? (a : Annotation) (key : String) : Option String := a.values.get? key

/-- The program element that an injection point is attached to. -/
inductive InjectionTarget where
  | field (declaringClass : QualifiedName) (name : String)
  | parameter (declaringClass : QualifiedName) (method : String) (position : UInt64)
      (name : String)
  | method (declaringClass : QualifiedName) (name : String)
  | onClass (name : QualifiedName)
  deriving DecidableEq

namespace InjectionTarget

/-- The element as it is shown. -/
def display : InjectionTarget → String
  | .field c n => s!"field {c.text}#{n}"
  | .parameter c m p n => s!"parameter {n} (position {p.toNat}) of {c.text}#{m}()"
  | .method c n => s!"method {c.text}#{n}()"
  | .onClass n => s!"class {n.text}"

/-- The declaring class and the name of an element that can take a value. -/
def member? : InjectionTarget → Option (QualifiedName × String)
  | .field c n => some (c, n)
  | .parameter c _ _ n => some (c, n)
  | .method _ _ => none
  | .onClass _ => none

end InjectionTarget

/-- A place that asks for a value. -/
structure InjectionPoint where
  target : InjectionTarget
  requiredType : TypeRef
  qualifiers : List Annotation
  /-- Whether the point has no qualifier of its own and got the default one. -/
  defaulted : Bool
  deriving DecidableEq

/-- The first qualifier with a name. -/
def InjectionPoint.qualifier? (p : InjectionPoint) (name : QualifiedName) : Option Annotation :=
  p.qualifiers.find? fun q => q.name = name

/-- The element that a declaration stands on. -/
inductive DeclarationTarget where
  | onClass (name : QualifiedName)
  | field (declaringClass : QualifiedName) (name : String)
  | method (declaringClass : QualifiedName) (name : String)
  deriving DecidableEq

/-- An annotation with the element that carries it. -/
structure Declaration where
  attached : Annotation
  target : DeclarationTarget
  deriving DecidableEq

end ConfigBinder
