/-
The stages of a binding pass.

Each stage adds to what has been collected.  A stage that fails keeps what it added
before; stages can be taken in any order and more than once.  A whole pass takes each
of them once, and ends at the first failure.
-/
import ConfigBinder.Binding.Manifest
import ConfigBinder.Binding.PropertyTypes
import ConfigBinder.Binding.Provider
import ConfigBinder.Build.Output

namespace ConfigBinder

/-- A stage of a pass. -/
inductive Stage where
  /-- The producer of covered values is made discoverable. -/
  | producer
  /-- Injection points are classified, and providers registered. -/
  | analysis
  /-- The properties found so far are grouped for the startup check. -/
  | validation
  /-- Configuration roots become components. -/
  | roots
  /-- Declared mappings get their implementations. -/
  | mappings
  deriving DecidableEq, Repr

/-- How a stage ends. -/
inductive StageResult where
  | done
  | grouped (types : PropertyTypes)
  | failed (error : BindingError)

namespace Stage

/-- How a stage that gives nothing but an error or success ends. -/
def resultOf {α : Type} : Except BindingError α → StageResult
  | .ok _ => .done
  | .error e => .failed e

/-- What the analysis adds: the properties found, and the providers if it succeeds. -/
def analysisItems (context : BindingContext) : Collected × Except BindingError Unit :=
  match analyze context.settings context.source with
  | (properties, .ok found) =>
    ({ Provider.register context.settings found.types with properties := properties }, .ok ())
  | (properties, .error e) => ({ (∅ : Collected) with properties := properties }, .error e)

/-- What a stage adds to the items collected before it, and how it ends. -/
def contribution (context : BindingContext) (before : Collected) :
    Stage → Collected × StageResult
  | .producer =>
    ({ (∅ : Collected) with additional := [⟨context.settings.producerComponent⟩] }, .done)
  | .analysis =>
    let (added, outcome) := analysisItems context
    (added, resultOf outcome)
  | .validation =>
    ({ (∅ : Collected) with reflective := ConfigProperty.reflective before.properties },
      .grouped (ConfigProperty.group before.properties))
  | .roots =>
    ({ (∅ : Collected) with
        synthetic := RootComponent.ofRoots context.source.configRoots }, .done)
  | .mappings =>
    let (added, outcome) := ConfigMapping.generate context
    (added, resultOf outcome)

/-- Takes a stage. -/
def run (context : BindingContext) (before : Collected) (stage : Stage) :
    Collected × StageResult :=
  let (added, result) := contribution context before stage
  (before ++ added, result)

/-- Takes a row of stages, and gives with each result the items collected by then. -/
def runAll (context : BindingContext) (before : Collected) :
    List Stage → List (Collected × StageResult)
  | [] => []
  | stage :: rest =>
    let step := run context before stage
    step :: runAll context step.1 rest

end Stage

/-- A whole pass. -/
def BindingContext.run (context : BindingContext) : Except BindingError BuildOutput := do
  let (items, _) := Stage.run context ∅ .producer
  let (added, analysis) := Stage.analysisItems context
  analysis
  let items := items ++ added
  let types := ConfigProperty.group items.properties
  let (items, _) := Stage.run context items .validation
  let (items, _) := Stage.run context items .roots
  let (added, generation) := ConfigMapping.generate context
  generation
  let items := items ++ added
  return ⟨items, .ofMappings types items.mappings⟩

/-- The context of a pass over a snapshot, with manifests as implementations. -/
def Snapshot.context (settings : Settings) (s : Snapshot) : BindingContext where
  settings := settings
  source := s.source
  loader := s.source.loader
  emitter := manifestEmitter (s.classes.map (·.name)) s.source.loader

end ConfigBinder
