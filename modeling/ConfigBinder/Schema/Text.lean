/-
Documents in JSON and YAML text.

Settings are read from YAML, snapshots from either, and both must be usable to be
accepted.  What a pass hands over is written and read as JSON.
-/
import ConfigBinder.Binding.Error
import ConfigBinder.Json.Document
import ConfigBinder.Json.Printer
import ConfigBinder.Schema.Build
import ConfigBinder.Schema.Settings
import ConfigBinder.Yaml.Document

namespace ConfigBinder

/-- The forms of documents in text. -/
inductive DocumentForm where
  | json
  | yaml
  deriving DecidableEq, Repr

/-- The settings of a YAML text. -/
def Settings.ofYaml (text : String) : Except SettingsError Settings :=
  match (Yaml.view? text).bind (·.answer? ofDocument?) with
  | some s => s.validated
  | none => .error .malformed

namespace Snapshot

/-- The snapshot, if it is sound. -/
def sound (s : Snapshot) : Except BindingError Snapshot :=
  match s.validate with
  | .ok () => .ok s
  | .error fault => .error (.invalidSnapshot fault)

/-- The snapshot of a text. -/
def ofText (form : DocumentForm) (text : String) : Except BindingError Snapshot :=
  match form with
  | .json =>
    match (Json.parse? text).bind fun v => ofDocument? v.view with
    | some s => s.sound
    | none => .error .malformedJson
  | .yaml =>
    match (Yaml.view? text).bind (·.answer? ofDocument?) with
    | some s => s.sound
    | none => .error .malformedYaml

end Snapshot

namespace BuildOutput

/-- What a pass hands over, as indented JSON text. -/
def toText (o : BuildOutput) : String := o.toJson.pretty

/-- What a JSON text hands over. -/
def ofText (text : String) : Except BindingError BuildOutput :=
  match (Json.parse? text).bind fun v => ofDocument? v.view with
  | some o => .ok o
  | none => .error .malformedJson

end BuildOutput

end ConfigBinder
