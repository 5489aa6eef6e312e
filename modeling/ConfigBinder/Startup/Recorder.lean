/-
The startup stage.

A plan is replayed when the container is ready: the properties are validated, then
the mappings are registered in order.  Registration ends at a mapping whose interface
has a blank name, and what was registered before it stays.
-/
import ConfigBinder.Build.Output
import ConfigBinder.Startup.Problem

namespace ConfigBinder

/-- Why the startup fails. -/
inductive StartupError where
  | invalidProperties (problems : List PropertyProblem)
  /-- The mapping with this prefix names no interface. -/
  | blankInterface (keyPrefix : String)
  deriving DecidableEq, Repr

namespace StartupError

/-- The wording of the error, a line for each problem. -/
def message : StartupError → String
  | .invalidProperties problems =>
    s!"Configuration validation failed ({problems.length} problem(s)):" ++
      String.join (problems.map fun p => "\n  - " ++ p.message)
  | .blankInterface keyPrefix =>
    s!"Config mapping registration failed: mapping with prefix '{keyPrefix}' has no interface"

/-- The problems that the error tells. -/
def problems : StartupError → List PropertyProblem
  | .invalidProperties problems => problems
  | .blankInterface _ => []

end StartupError

/-- Checks configured values against the types of properties. -/
def PropertyTypes.validate (types : PropertyTypes) (resolve : TypeResolver)
    (values : ConfigValues) : Except StartupError Unit :=
  match types.problems resolve values with
  | [] => .ok ()
  | p :: rest => .error (.invalidProperties (p :: rest))

/-- The mappings registered so far, with what properties are checked against. -/
structure Recorder where
  resolve : TypeResolver
  values : ConfigValues
  registered : OrderedSet MappingBinding

namespace Recorder

/-- Nothing is registered yet. -/
def fresh (resolve : TypeResolver) (values : ConfigValues) : Recorder := ⟨resolve, values, ∅⟩

/-- The recorder with one more mapping. -/
def add (r : Recorder) (m : MappingBinding) : Recorder :=
  { r with registered := r.registered.insert m }

/-- Registers mappings in order, up to the first without an interface. -/
def registerAll (r : Recorder) : List MappingBinding → Recorder × Except StartupError Unit
  | [] => (r, .ok ())
  | m :: rest =>
    if m.interface.isBlank then (r, .error (.blankInterface m.keyPrefix))
    else registerAll (r.add m) rest

/-- Registers a set of mappings. -/
def register (r : Recorder) (mappings : OrderedSet MappingBinding) :
    Recorder × Except StartupError Unit :=
  r.registerAll mappings.members

/-- Validates properties. -/
def validate (r : Recorder) (types : PropertyTypes) : Except StartupError Unit :=
  types.validate r.resolve r.values

/-- Replays a plan: what does not validate registers nothing. -/
def replay (r : Recorder) (plan : StartupPlan) : Recorder × Except StartupError Unit :=
  match r.validate plan.propertyTypes with
  | .error e => (r, .error e)
  | .ok () => r.register plan.mappings

end Recorder

end ConfigBinder
