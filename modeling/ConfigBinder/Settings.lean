/-
Settings of the binding pass.

They are the names that the pass looks for and the names that it emits.  Each has a
default, which a variable of the environment or a member of a document replaces.
-/
import ConfigBinder.Type.Name

namespace ConfigBinder

/-- The names that a pass looks for and emits. -/
structure Settings where
  /-- The qualifier of an injection point for a configuration property. -/
  propertyQualifier : QualifiedName
  /-- The annotation of an interface that maps configuration. -/
  mappingAnnotation : QualifiedName
  /-- The default value that means there is none. -/
  unconfiguredValue : String
  /-- The component that supplies covered values. -/
  producerComponent : QualifiedName
  /-- The creator of synthetic values, which also backs arrays. -/
  beanCreator : QualifiedName
  /-- The creator of mapping implementations. -/
  mappingCreator : QualifiedName
  /-- How much is logged. -/
  logLevel : String
  deriving DecidableEq, Repr

/-- One of the settings. -/
inductive Setting where
  | propertyQualifier
  | mappingAnnotation
  | unconfiguredValue
  | producerComponent
  | beanCreator
  | mappingCreator
  | logLevel
  deriving DecidableEq, Repr

namespace Setting

/-- All settings. -/
def all : List Setting :=
  [propertyQualifier, mappingAnnotation, unconfiguredValue, producerComponent, beanCreator,
    mappingCreator, logLevel]

/-- The variable of the environment that holds the setting. -/
def envName : Setting → String
  | propertyQualifier => "ELIF_BINDER_PROPERTY_QUALIFIER"
  | mappingAnnotation => "ELIF_BINDER_MAPPING_ANNOTATION"
  | unconfiguredValue => "ELIF_BINDER_UNCONFIGURED_VALUE"
  | producerComponent => "ELIF_BINDER_PRODUCER"
  | beanCreator => "ELIF_BINDER_BEAN_CREATOR"
  | mappingCreator => "ELIF_BINDER_MAPPING_CREATOR"
  | logLevel => "ELIF_BINDER_LOG_LEVEL"

end Setting

/-- Why settings cannot be used. -/
inductive SettingsError where
  | missingRequired (field hint : String)
  | invalidValue (field value expected : String)
  /-- The file cannot be read, for the reason that the system gives. -/
  | unreadable (reason : String)
  /-- The document is no settings record. -/
  | malformed
  deriving DecidableEq, Repr

/-- The wording of the error; a malformed document is worded by its reader. -/
def SettingsError.message : SettingsError → String
  | .missingRequired field hint => s!"Missing required field: {field}. {hint}"
  | .invalidValue field value expected =>
    s!"Invalid value for field '{field}': '{value}'. Expected: {expected}"
  | .unreadable reason => s!"IO error: {reason}"
  | .malformed => "(parser)"

/-- A qualified name must hold something, and no white space. -/
def checkQualifiedName (field value : String) : Except SettingsError Unit :=
  if Text.allBlank value then
    .error (.missingRequired field "A fully qualified type name is required")
  else if value.toList.any Text.isBlank then
    .error (.invalidValue field value "qualified type name without whitespace")
  else .ok ()

namespace Settings

/-- The defaults. -/
def default : Settings where
  propertyQualifier := ⟨"elif.config.ConfigProperty"⟩
  mappingAnnotation := ⟨"elif.config.ConfigMapping"⟩
  unconfiguredValue := "elif.config.property.unconfigured"
  producerComponent := ⟨"elif.config.inject.ConfigProducer"⟩
  beanCreator := ⟨"elif.config.runtime.ConfigBeanCreator"⟩
  mappingCreator := ⟨"elif.config.runtime.ConfigMappingCreator"⟩
  logLevel := "info"

instance : Inhabited Settings := ⟨default⟩

/-- The log levels, in small letters. -/
def logLevels : List String := ["trace", "debug", "info", "warn", "error"]

/-- Whether a text is a log level in any case of its letters.  Only ASCII letters
have a small form among those of the levels. -/
def isLogLevel (s : String) : Bool := logLevels.contains (String.ofList (s.toList.map Char.toLower))

/-- Finds the settings usable, or gives the first fault. -/
def validate (s : Settings) : Except SettingsError Unit := do
  checkQualifiedName "property_qualifier" s.propertyQualifier.text
  checkQualifiedName "mapping_annotation" s.mappingAnnotation.text
  checkQualifiedName "producer_component" s.producerComponent.text
  checkQualifiedName "bean_creator" s.beanCreator.text
  checkQualifiedName "mapping_creator" s.mappingCreator.text
  if s.unconfiguredValue = "" then
    throw (.missingRequired "unconfigured_value"
      "The sentinel must differ from an empty default value")
  if !isLogLevel s.logLevel then
    throw (.invalidValue "log_level" s.logLevel "trace, debug, info, warn or error")

/-- The settings, if they are usable. -/
def validated (s : Settings) : Except SettingsError Settings := s.validate.map fun _ => s

/-- The defaults, with those replaced whose variables are set. -/
def overridden (env? : String → Option String) : Settings where
  propertyQualifier := (env? Setting.propertyQualifier.envName).elim default.propertyQualifier .mk
  mappingAnnotation := (env? Setting.mappingAnnotation.envName).elim default.mappingAnnotation .mk
  unconfiguredValue := (env? Setting.unconfiguredValue.envName).getD default.unconfiguredValue
  producerComponent := (env? Setting.producerComponent.envName).elim default.producerComponent .mk
  beanCreator := (env? Setting.beanCreator.envName).elim default.beanCreator .mk
  mappingCreator := (env? Setting.mappingCreator.envName).elim default.mappingCreator .mk
  logLevel := (env? Setting.logLevel.envName).getD default.logLevel

/-- The settings that an environment gives, if they are usable. -/
def ofEnvironment (env? : String → Option String) : Except SettingsError Settings :=
  (overridden env?).validated

end Settings

end ConfigBinder
