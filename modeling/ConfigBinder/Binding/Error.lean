/-
What ends a binding pass.
-/
import ConfigBinder.Metadata.Snapshot

namespace ConfigBinder

/-- Why a pass, or the reading of its input, fails. -/
inductive BindingError where
  /-- A configuration property is injected into something that is no field or
  parameter. -/
  | unsupportedTarget (target : InjectionTarget)
  /-- A mapping interface does not load, for a reason that the loader gives. -/
  | classLoading (name : QualifiedName) (reason : String)
  /-- No implementation of a mapping interface can be made. -/
  | mappingGeneration (interface : QualifiedName) (reason : String)
  | invalidSnapshot (fault : SnapshotFault)
  | malformedYaml
  | malformedJson
  deriving DecidableEq

namespace BindingError

/-- The wording of the error; a malformed document is worded by its reader. -/
def message : BindingError → String
  | .unsupportedTarget t => s!"Unsupported injection point target: {t.display}"
  | .classLoading n reason =>
    s!"The class ({n.text}) cannot be created during deployment: {reason}"
  | .mappingGeneration n reason =>
    s!"Config mapping generation failed for '{n.text}': {reason}"
  | .invalidSnapshot fault => s!"Invalid metadata snapshot: {fault.message}"
  | .malformedYaml => "(parser)"
  | .malformedJson => "(parser)"

/-- The reasons behind the error, each the cause of the one before. -/
def causes : BindingError → List String
  | .classLoading _ reason => [reason]
  | _ => []

/-- Whether the error is an unsupported target. -/
def isUnsupportedTarget : BindingError → Bool
  | .unsupportedTarget _ => true
  | _ => false

/-- Whether the error is a class that does not load. -/
def isClassLoading : BindingError → Bool
  | .classLoading _ _ => true
  | _ => false

end BindingError

end ConfigBinder
