/-
The commands of the program.

Settings come first, from the file that is given or else from the environment; then the
command's input is read in order.  A command prints one line or some, or it fails with a
report: what failed, and the causes behind it.
-/
import ConfigBinder.Binding.Stage
import ConfigBinder.CommandLine.Arguments
import ConfigBinder.CommandLine.Directory
import ConfigBinder.Schema.Text
import ConfigBinder.Startup.PropertyFile
import ConfigBinder.Startup.Recorder
import ConfigBinder.Version

namespace ConfigBinder.CommandLine

/-- What failed, and the causes behind it. -/
structure Report where
  message : String
  causes : List String
  deriving DecidableEq, Repr

namespace Report

/-- A text whose lines behind the first are indented. -/
def indentLines (indent : List Char) : List Char → List Char
  | [] => []
  | c :: rest =>
    if c = '\n' then c :: indent ++ indentLines indent rest else c :: indentLines indent rest

/-- Four spaces more than a number needs. -/
def numberWidth : Nat := 5

/-- A cause on lines of its own. -/
def causeText (label : List Char) (indent : Nat) (cause : String) : List Char :=
  '\n' :: label ++ indentLines (List.replicate indent ' ') cause.toList

/-- The label of a cause with a number. -/
def numbered (n : Nat) : List Char :=
  let ds := Decimal.digits n
  List.replicate (numberWidth - ds.length) ' ' ++ ds ++ [':', ' ']

/-- The causes below one another; they have numbers when there are more than one. -/
def causesText : List String → List Char
  | [] => []
  | [cause] => causeText (List.replicate 4 ' ') 4 cause
  | causes => (causes.zipIdx.map fun (c, n) => causeText (numbered n) (numberWidth + 2) c).flatten

/-- The report as it is printed. -/
def text (r : Report) : String :=
  if r.causes.isEmpty then r.message
  else r.message ++ "\n\nCaused by:" ++ String.ofList (causesText r.causes)

/-- The report of unusable settings. -/
def ofSettings (e : SettingsError) : Report :=
  match e with
  | .unreadable reason => ⟨e.message, [reason]⟩
  | _ => ⟨e.message, []⟩

/-- The report of a failed pass or reading. -/
def ofBinding (e : BindingError) : Report := ⟨e.message, e.causes⟩

/-- The report of a failed startup. -/
def ofStartup (e : StartupError) : Report := ⟨e.message, []⟩

/-- A report with a new message in front. -/
def under (message : String) (r : Report) : Report := ⟨message, r.message :: r.causes⟩

end Report

/-- How the program reaches files: each answer is a text or the reason why there is
none. -/
structure FileAccess (m : Type → Type) where
  read : String → m (Except String String)
  write : String → String → m (Except String Unit)

/-- The files of a directory that is kept as a value. -/
def Directory.access : FileAccess (StateM Directory) where
  read path := do return ((← get).read path).mapError FileFault.message
  write path text := do
    match (← get).write path text with
    | .ok d =>
      set d
      return .ok ()
    | .error fault => return .error fault.message

/-! ### What the commands show -/

/-- The lines of a summary: how much of each kind, and the startup plan. -/
def summaryLines (o : BuildOutput) : List String :=
  [s!"Synthetic components: {o.items.synthetic.length}",
    s!"Generated classes:    {o.items.generated.length}",
    s!"Reflective classes:   {o.items.reflective.length}",
    s!"Validated properties: {o.plan.propertyTypes.size}"] ++
  (o.plan.propertyTypes.entries.map fun (property, types) =>
    s!"  {property} -> " ++ ", ".intercalate types.members) ++
  o.plan.mappings.members.map fun m => s!"Mapping {m.interface.text} (prefix '{m.keyPrefix}')"

/-- What a pass hands over, as it is shown. -/
def render (format : OutputFormat) (o : BuildOutput) : String :=
  match format with
  | .json => o.toText
  | .summary => "\n".intercalate (summaryLines o)

/-- The resolver of a startup without the application: the types that its components
supply are made from any text, like those that are named as known. -/
def standaloneTypes (o : BuildOutput) (knownTypes : List String) : KnownTypes :=
  (KnownTypes.builtinOnly.withImplicits (o.providedTypes.members.map (·.text))).withImplicits
    knownTypes

/-- Replays the startup of a build's output against configured values, and gives the
number of registered mappings. -/
def replay (o : BuildOutput) (values : OrderedMap String String) (knownTypes : List String) :
    Except StartupError Nat :=
  let recorder := Recorder.fresh (standaloneTypes o knownTypes).resolve values.get?
  match recorder.replay o.plan with
  | (after, .ok ()) => .ok after.registered.size
  | (_, .error e) => .error e

/-! ### The commands -/

/-- The form of a snapshot by the name of its file. -/
def snapshotForm (path : String) : DocumentForm :=
  if pathExtension? path = some "json" then .json else .yaml

section

variable {m : Type → Type} [Monad m]

/-- Reads a file, under a message that tells what it is for. -/
def readInput (files : FileAccess m) (message path : String) : ExceptT Report m String := do
  match ← files.read path with
  | .ok text => return text
  | .error reason => throw ⟨s!"{message} {path}", [reason]⟩

/-- The settings, from a file or from the environment. -/
def loadSettings (files : FileAccess m) (env? : String → Option String) :
    Option String → ExceptT Report m Settings
  | none => ExceptT.mk (pure ((Settings.ofEnvironment env?).mapError Report.ofSettings))
  | some path => do
    match ← files.read path with
    | .ok text => ExceptT.mk (pure ((Settings.ofYaml text).mapError Report.ofSettings))
    | .error reason => throw (Report.ofSettings (.unreadable reason))

/-- Takes a binding pass over the snapshot of a file. -/
def analyze (files : FileAccess m) (settings : Settings) (path : String) (format : OutputFormat)
    (output : Option String) : ExceptT Report m String := do
  let text ← readInput files "Failed to read snapshot" path
  let snapshot ← ExceptT.mk
    (pure ((Snapshot.ofText (snapshotForm path) text).mapError Report.ofBinding))
  let result ← ExceptT.mk
    (pure ((snapshot.context settings).run.mapError fun e =>
      (Report.ofBinding e).under s!"Config binding failed for {path}"))
  let shown := render format result
  match output with
  | none => return shown ++ "\n"
  | some target =>
    match ← files.write target shown with
    | .ok () => return s!"✓ Build output written to {target}\n"
    | .error reason => throw ⟨s!"Failed to write {target}", [reason]⟩

/-- Replays the startup of the build's output of a file. -/
def validate (files : FileAccess m) (buildOutput properties : String)
    (knownTypes : List String) : ExceptT Report m String := do
  let text ← readInput files "Failed to read" buildOutput
  let o ← ExceptT.mk (pure ((BuildOutput.ofText text).mapError Report.ofBinding))
  let text ← readInput files "Failed to read properties" properties
  match PropertyFile.ofText? text with
  | none => throw (Report.ofBinding .malformedYaml)
  | some values =>
    let registered ← ExceptT.mk (pure ((replay o values knownTypes).mapError Report.ofStartup))
    return s!"✓ {o.plan.propertyTypes.size} properties valid, " ++
      s!"{registered} mappings registered\n"

/-- Runs a command, and gives what it prints. -/
def Command.run (files : FileAccess m) (settings : Settings) : Command → ExceptT Report m String
  | .analyze path format output => CommandLine.analyze files settings path format output
  | .validate o properties knownTypes => CommandLine.validate files o properties knownTypes

/-- How the program ends: its exit code, what it prints, and the report of a failure.

The texts of `--help` and of a usage error are those of the argument reader and no part of an
outcome; such a run is told by its exit code. -/
structure Outcome where
  exitCode : UInt8
  output : String
  report : Option Report
  deriving DecidableEq, Repr

/-- The name and version as they are shown. -/
def versionLine : String := s!"elif-binder {version}\n"

/-- Runs the program.  Help ends it with exit code 0 and wrong arguments with 2, both before any
file or setting is read. -/
def run (files : FileAccess m) (env? : String → Option String) (arguments : List String) :
    m Outcome := do
  match Request.ofArguments? arguments with
  | none => return ⟨2, "", none⟩
  | some .help => return ⟨0, "", none⟩
  | some .version => return ⟨0, versionLine, none⟩
  | some (.run settingsPath command) =>
    let result ← ExceptT.run do
      let settings ← loadSettings files env? settingsPath
      command.run files settings
    match result with
    | .ok output => return ⟨0, output, none⟩
    | .error report => return ⟨1, "", some report⟩

end

end ConfigBinder.CommandLine
