/-
What is wrong with the configured values.

Each property is checked against each type that it is injected as.  All problems are
told, in the order of the properties and of their types.
-/
import ConfigBinder.Build.Item
import ConfigBinder.Startup.KnownTypes

namespace ConfigBinder

/-- What is wrong with a property as one of its types. -/
inductive PropertyProblem where
  /-- There is no value, or a blank one. -/
  | missing (property type : String)
  /-- The type does not exist in the running program. -/
  | unknownType (property type : String)
  /-- The value does not convert, for a reason that the converter gives. -/
  | conversion (property type reason : String)
  deriving DecidableEq, Repr

namespace PropertyProblem

/-- The property that the problem is about. -/
def property : PropertyProblem → String
  | .missing p _ => p
  | .unknownType p _ => p
  | .conversion p _ _ => p

/-- The wording of the problem. -/
def message : PropertyProblem → String
  | .missing p t => s!"Configuration property '{p}' of type {t} is required but has no value"
  | .unknownType p t =>
    s!"Type {t} required by configuration property '{p}' cannot be resolved"
  | .conversion p t reason =>
    s!"Configuration property '{p}' cannot be converted to {t}: {reason}"

end PropertyProblem

/-- The configured texts by property. -/
abbrev ConfigValues := String → Option String

/-- The value of a property, unless it is blank. -/
def ConfigValues.stated? (values : ConfigValues) (property : String) : Option String :=
  (values property).filter fun v => !Text.allBlank v

/-- The problem of a property as one type.  That the type is unknown goes before that
the value is missing. -/
def PropertyProblem.find? (resolve : TypeResolver) (value : Option String)
    (property type : String) : Option PropertyProblem :=
  match resolve type, value with
  | none, _ => some (.unknownType property type)
  | some _, none => some (.missing property type)
  | some converter, some raw =>
    match converter raw with
    | .ok () => none
    | .error reason => some (.conversion property type reason)

/-- All problems of configured values with the types of properties. -/
def PropertyTypes.problems (types : PropertyTypes) (resolve : TypeResolver)
    (values : ConfigValues) : List PropertyProblem :=
  types.entries.flatMap fun (property, names) =>
    names.members.filterMap (PropertyProblem.find? resolve (values.stated? property) property)

end ConfigBinder
