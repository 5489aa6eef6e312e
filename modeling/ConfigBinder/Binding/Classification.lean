/-
What the injection points ask for.

A point that carries the property qualifier asks for a configuration property.  The
property has the name that the qualifier states, or one derived from the member that
takes the value.  It must have a value at startup unless its type is optional or the
qualifier states a default.  The types that the built-in producer does not supply are
gathered, the first of each outer name.
-/
import ConfigBinder.Binding.Error
import ConfigBinder.Build.Item
import ConfigBinder.Settings
import ConfigBinder.Type.Coverage

namespace ConfigBinder

/-- What one injection point asks for. -/
structure Classification where
  propertyName : String
  requiredType : TypeRef
  /-- Whether the built-in producer supplies the type. -/
  supplied : Bool
  /-- The property to check at startup, if it must have a value. -/
  property : Option ConfigProperty
  deriving DecidableEq

/-- The name of a property for which none is stated: the declaring class and the
member; a nested class is written as its outer class and its simple name. -/
def derivedPropertyName (source : MetadataSource) (declaringClass : QualifiedName)
    (member : String) : String :=
  match (source.classEntry? declaringClass).bind (·.enclosing) with
  | some outer => s!"{outer.text}.{declaringClass.simple}.{member}"
  | none => s!"{declaringClass.text}.{member}"

/-- The name that a qualifier states for its property. -/
def statedPropertyName (qualifier : Annotation) : Option String :=
  (qualifier.value? "name").filter (· ≠ "")

/-- Whether a qualifier states a default value. -/
def statesDefault (settings : Settings) (qualifier : Annotation) : Bool :=
  match qualifier.value? "defaultValue" with
  | some v => v ≠ settings.unconfiguredValue
  | none => false

/-- The qualifier that makes a point one for a configuration property.  A point whose
qualifier the container put there is none. -/
def propertyQualifier? (settings : Settings) (point : InjectionPoint) : Option Annotation :=
  if point.defaulted then none else point.qualifier? settings.propertyQualifier

/-- What a point with the given property qualifier asks for. -/
def classifyQualified (settings : Settings) (source : MetadataSource) (point : InjectionPoint)
    (qualifier : Annotation) : Except BindingError Classification :=
  match point.target.member? with
  | none => .error (.unsupportedTarget point.target)
  | some (declaringClass, member) =>
    let name := (statedPropertyName qualifier).getD
      (derivedPropertyName source declaringClass member)
    .ok
      { propertyName := name
        requiredType := point.requiredType
        supplied := point.requiredType.isSupplied
        property :=
          if point.requiredType.isOptional || statesDefault settings qualifier then none
          else some ⟨name, point.requiredType⟩ }

/-- What a point asks for, none when it is no configuration property. -/
def classify (settings : Settings) (source : MetadataSource) (point : InjectionPoint) :
    Except BindingError (Option Classification) :=
  match propertyQualifier? settings point with
  | none => .ok none
  | some qualifier => (classifyQualified settings source point qualifier).map some

/-- Types that need a provider, no two with one outer name. -/
structure Unsupplied where
  /-- The types, in the order of their discovery. -/
  types : List TypeRef
  distinct : (types.map (·.outerName)).Nodup

namespace Unsupplied

/-- No type needs a provider. -/
def empty : Unsupplied := ⟨[], .nil⟩

/-- Whether a type with this outer name is there. -/
def covers (u : Unsupplied) (name : QualifiedName) : Bool :=
  (u.types.map (·.outerName)).contains name

/-- The types with one more, unless its outer name is there. -/
def insert (u : Unsupplied) (t : TypeRef) : Unsupplied :=
  if h : u.covers t.outerName then u
  else
    ⟨u.types ++ [t], by
      have hn : ∀ x ∈ u.types, x.outerName ≠ t.outerName := by
        simpa [covers] using h
      rw [List.map_append, List.nodup_append]
      refine ⟨u.distinct, by simp, fun a ha b hb => ?_⟩
      obtain ⟨x, hx, rfl⟩ := List.mem_map.mp ha
      obtain rfl : b = t.outerName := by simpa using hb
      exact hn x hx⟩

/-- The number of types. -/
def size (u : Unsupplied) : Nat := u.types.length

end Unsupplied

/-- Goes through injection points in order.  Gives the properties to check of the
points before the first bad one, and the types that need a provider, or the error of
the bad one. -/
def scan (settings : Settings) (source : MetadataSource) (found : Unsupplied) :
    List InjectionPoint → List ConfigProperty × Except BindingError Unsupplied
  | [] => ([], .ok found)
  | point :: rest =>
    match classify settings source point with
    | .error e => ([], .error e)
    | .ok none => scan settings source found rest
    | .ok (some c) =>
      let (properties, outcome) :=
        scan settings source (if c.supplied then found else found.insert c.requiredType) rest
      (c.property.toList ++ properties, outcome)

/-- Goes through all injection points of a source. -/
def analyze (settings : Settings) (source : MetadataSource) :
    List ConfigProperty × Except BindingError Unsupplied :=
  scan settings source .empty source.injectionPoints

end ConfigBinder
