/-
The written form of settings.

A member that is left out keeps its default.
-/
import ConfigBinder.Schema.Type
import ConfigBinder.Settings

namespace ConfigBinder.Settings

open Document

variable {δ : Type} {m : Type → Type} [Monad m] [MonadLiftT Option m] [Document δ m]

def toJson (s : Settings) : Json :=
  .object [("property_qualifier", s.propertyQualifier.toJson),
    ("mapping_annotation", s.mappingAnnotation.toJson),
    ("unconfigured_value", .text s.unconfiguredValue),
    ("producer_component", s.producerComponent.toJson),
    ("bean_creator", s.beanCreator.toJson), ("mapping_creator", s.mappingCreator.toJson),
    ("log_level", .text s.logLevel)]

def members : List String :=
  ["property_qualifier", "mapping_annotation", "unconfigured_value", "producer_component",
    "bean_creator", "mapping_creator", "log_level"]

/-- The settings that a document is. -/
def ofDocument? (d : δ) : m Settings := do
  let get ← fields? members d
  let name := fun (fallback : QualifiedName) member =>
    orDefault fallback QualifiedName.ofDocument? (get member)
  return {
      propertyQualifier := ← name default.propertyQualifier "property_qualifier"
      mappingAnnotation := ← name default.mappingAnnotation "mapping_annotation"
      unconfiguredValue := ← orDefault default.unconfiguredValue text? (get "unconfigured_value")
      producerComponent := ← name default.producerComponent "producer_component"
      beanCreator := ← name default.beanCreator "bean_creator"
      mappingCreator := ← name default.mappingCreator "mapping_creator"
      logLevel := ← orDefault default.logLevel text? (get "log_level") }

end ConfigBinder.Settings
