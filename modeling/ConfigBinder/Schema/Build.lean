/-
The written form of what a binding pass hands over.

Nothing in it has a default.  Maps and sets are written in their order, and read in
any order.
-/
import ConfigBinder.Build.Output
import ConfigBinder.Schema.Metadata

namespace ConfigBinder

open Document

variable {δ : Type} {m : Type → Type} [Monad m] [MonadLiftT Option m] [Document δ m]

namespace Scope

def named : List (String × Scope) := [("dependent", .dependent), ("singleton", .singleton)]

def toJson (s : Scope) : Json := .text s.name

/-- The scope that a document names. -/
def ofDocument? (d : δ) : m Scope := oneOf? named d

end Scope

namespace Creator

def toJson : Creator → Json
  | .bean c => .object [("kind", .text "config_bean"), ("creator", c.toJson)]
  | .mapping c => .object [("kind", .text "config_mapping"), ("creator", c.toJson)]
  | .root r p =>
    .object [("kind", .text "config_root"), ("root", r.toJson), ("phase", p.toJson)]

inductive Kind where
  | bean
  | mapping
  | root
  deriving DecidableEq, Repr

def kinds : List (String × Kind) :=
  [("config_bean", .bean), ("config_mapping", .mapping), ("config_root", .root)]

/-- The creator that a record of a known kind is. -/
def ofKinded? (k : Kinded) : Option Creator := do
  match ← k.kind.pick? kinds with
  | .bean =>
    let get ← k.rest.fields? ["creator"]
    some (.bean (← (get "creator").bind QualifiedName.ofDatum?))
  | .mapping =>
    let get ← k.rest.fields? ["creator"]
    some (.mapping (← (get "creator").bind QualifiedName.ofDatum?))
  | .root =>
    let get ← k.rest.fields? ["root", "phase"]
    some (.root (← (get "root").bind QualifiedName.ofDatum?)
      (← (get "phase").bind ConfigPhase.ofDatum?))

/-- The creator that a document is. -/
def ofDocument? (d : δ) : m Creator := do ofKinded? (← kinded? d)

end Creator

namespace ParamValue

def toJson : ParamValue → Json
  | .text s => .object [("kind", .text "string"), ("value", .text s)]
  | .type n => .object [("kind", .text "type"), ("value", n.toJson)]

def kinds : List (String × (String → ParamValue)) :=
  [("string", .text), ("type", fun s => .type ⟨s⟩)]

/-- The parameter value that a document is. -/
def ofDocument? (d : δ) : m ParamValue := do
  let get ← fields? ["kind", "value"] d
  let make ← required (oneOf? kinds) (get "kind")
  return (make (← required text? (get "value")))

end ParamValue

namespace Component

def toJson (c : Component) : Json :=
  .object [("implementation", c.implementation.toJson),
    ("provider_type", c.providerType.toJson), ("types", .array (c.types.map TypeRef.toJson)),
    ("qualifiers", .array (c.qualifiers.map QualifiedName.toJson)), ("scope", c.scope.toJson),
    ("creator", c.creator.toJson),
    ("params", .object (c.params.entries.map fun (k, v) => (k, v.toJson)))]

def members : List String :=
  ["implementation", "provider_type", "types", "qualifiers", "scope", "creator", "params"]

/-- The component that a document is. -/
def ofDocument? (d : δ) : m Component := do
  let get ← fields? members d
  return {
      implementation := ← required QualifiedName.ofDocument? (get "implementation")
      providerType := ← required TypeRef.ofDocument? (get "provider_type")
      types := ← required (list? TypeRef.ofDocument?) (get "types")
      qualifiers := ← required (list? QualifiedName.ofDocument?) (get "qualifiers")
      scope := ← required Scope.ofDocument? (get "scope")
      creator := ← required Creator.ofDocument? (get "creator")
      params := .ofList (← required (map? ParamValue.ofDocument?) (get "params")) }

end Component

namespace AdditionalComponent

def toJson (c : AdditionalComponent) : Json := .object [("class", c.componentClass.toJson)]

/-- The additional component that a document is. -/
def ofDocument? (d : δ) : m AdditionalComponent := do
  let get ← fields? ["class"] d
  return { componentClass := ← required QualifiedName.ofDocument? (get "class") }

end AdditionalComponent

namespace ReflectiveClass

def toJson (c : ReflectiveClass) : Json :=
  .object [("class_name", .text c.className), ("constructors", .bool c.constructors),
    ("methods", .bool c.methods)]

/-- The reflective class that a document is. -/
def ofDocument? (d : δ) : m ReflectiveClass := do
  let get ← fields? ["class_name", "constructors", "methods"] d
  return {
      className := ← required text? (get "class_name")
      constructors := ← required flag? (get "constructors")
      methods := ← required flag? (get "methods") }

end ReflectiveClass

namespace GeneratedClass

def toJson (c : GeneratedClass) : Json :=
  .object [("name", .text c.name),
    ("bytes", .array (c.bytes.map fun b => .nat b.toNat)),
    ("source_interface", c.sourceInterface.toJson),
    ("application_class", .bool c.applicationClass)]

/-- The byte that a document is. -/
def byteOfDocument? (d : δ) : m UInt8 := do
  let n ← natural? d
  if n < UInt8.size then return .ofNat n else none

/-- The generated class that a document is. -/
def ofDocument? (d : δ) : m GeneratedClass := do
  let get ← fields? ["name", "bytes", "source_interface", "application_class"] d
  return {
      name := ← required text? (get "name")
      bytes := ← required (list? byteOfDocument?) (get "bytes")
      sourceInterface := ← required QualifiedName.ofDocument? (get "source_interface")
      applicationClass := ← required flag? (get "application_class") }

end GeneratedClass

namespace ConfigProperty

def toJson (p : ConfigProperty) : Json :=
  .object [("property_name", .text p.name), ("required_type", p.requiredType.toJson)]

/-- The property that a document is. -/
def ofDocument? (d : δ) : m ConfigProperty := do
  let get ← fields? ["property_name", "required_type"] d
  return {
      name := ← required text? (get "property_name")
      requiredType := ← required TypeRef.ofDocument? (get "required_type") }

end ConfigProperty

namespace ConfigMapping

def toJson (m : ConfigMapping) : Json :=
  .object [("interface", m.interface.toJson), ("prefix", .text m.keyPrefix),
    ("implementations", .array (m.implementations.map .text))]

/-- The mapping that a document is. -/
def ofDocument? (d : δ) : m ConfigMapping := do
  let get ← fields? ["interface", "prefix", "implementations"] d
  return {
      interface := ← required QualifiedName.ofDocument? (get "interface")
      keyPrefix := ← required text? (get "prefix")
      implementations := ← required (list? text?) (get "implementations") }

end ConfigMapping

namespace PropertyTypes

def toJson (m : PropertyTypes) : Json :=
  .object (m.entries.map fun (k, types) => (k, .array (types.members.map .text)))

/-- The grouped properties that a document is; the last row of types of a property
counts. -/
def ofDocument? (d : δ) : m PropertyTypes :=
  .ofList <$> map? (fun types => OrderedSet.ofList <$> list? text? types) d

end PropertyTypes

namespace MappingBinding

def toJson (m : MappingBinding) : Json :=
  .object [("interface", m.interface.toJson), ("prefix", .text m.keyPrefix)]

/-- The binding that a document is. -/
def ofDocument? (d : δ) : m MappingBinding := do
  let get ← fields? ["interface", "prefix"] d
  return {
      interface := ← required QualifiedName.ofDocument? (get "interface")
      keyPrefix := ← required text? (get "prefix") }

end MappingBinding

/-- A set of bindings as a value. -/
def OrderedSet.bindingsToJson (s : OrderedSet MappingBinding) : Json :=
  .array (s.members.map MappingBinding.toJson)

namespace StartupPlan

def toJson (p : StartupPlan) : Json :=
  .object [("property_types", p.propertyTypes.toJson), ("mappings", p.mappings.bindingsToJson)]

/-- The plan that a document is. -/
def ofDocument? (d : δ) : m StartupPlan := do
  let get ← fields? ["property_types", "mappings"] d
  return {
      propertyTypes := ← required PropertyTypes.ofDocument? (get "property_types")
      mappings := .ofList (← required (list? MappingBinding.ofDocument?) (get "mappings")) }

end StartupPlan

namespace BuildOutput

def toJson (o : BuildOutput) : Json :=
  .object
    [("additional_components", .array (o.items.additional.map AdditionalComponent.toJson)),
      ("synthetic_components", .array (o.items.synthetic.map Component.toJson)),
      ("reflective_classes", .array (o.items.reflective.map ReflectiveClass.toJson)),
      ("generated_classes", .array (o.items.generated.map GeneratedClass.toJson)),
      ("config_properties", .array (o.items.properties.map ConfigProperty.toJson)),
      ("config_mappings", .array (o.items.mappings.map ConfigMapping.toJson)),
      ("startup_plan", o.plan.toJson)]

def members : List String :=
  ["additional_components", "synthetic_components", "reflective_classes", "generated_classes",
    "config_properties", "config_mappings", "startup_plan"]

/-- What a document hands over. -/
def ofDocument? (d : δ) : m BuildOutput := do
  let get ← fields? members d
  let items : Collected :=
    { additional :=
        ← required (list? AdditionalComponent.ofDocument?) (get "additional_components")
      synthetic := ← required (list? Component.ofDocument?) (get "synthetic_components")
      reflective := ← required (list? ReflectiveClass.ofDocument?) (get "reflective_classes")
      generated := ← required (list? GeneratedClass.ofDocument?) (get "generated_classes")
      properties := ← required (list? ConfigProperty.ofDocument?) (get "config_properties")
      mappings := ← required (list? ConfigMapping.ofDocument?) (get "config_mappings") }
  return ⟨items, ← required StartupPlan.ofDocument? (get "startup_plan")⟩

end BuildOutput

end ConfigBinder
