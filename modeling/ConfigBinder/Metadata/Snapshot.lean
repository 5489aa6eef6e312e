/-
The metadata that a binding pass looks at.

A source answers four questions about the analysed program.  A snapshot is a source
that holds its answers as lists; it is sound when no class name is blank and none
comes twice.
-/
import ConfigBinder.Metadata.Injection

namespace ConfigBinder

/-- A method as far as binding needs it. -/
structure Method where
  name : String
  returnType : TypeRef
  deriving DecidableEq

/-- An indexed class or interface. -/
structure ClassEntry where
  name : QualifiedName
  /-- The class around a nested one. -/
  enclosing : Option QualifiedName
  isInterface : Bool
  methods : List Method
  deriving DecidableEq

/-- The last segment of the class's name. -/
def ClassEntry.simpleName (c : ClassEntry) : String := c.name.simple

/-- When the values of a configuration root come into being. -/
inductive ConfigPhase where
  /-- Only the build sees the root. -/
  | buildOnly
  /-- The values are fixed by the build and readable at run time. -/
  | buildAndRuntimeFixed
  /-- The values are read at run time. -/
  | runtime
  deriving DecidableEq, Repr, Inhabited

namespace ConfigPhase

/-- The name of a phase. -/
def name : ConfigPhase → String
  | .buildOnly => "BUILD_ONLY"
  | .buildAndRuntimeFixed => "BUILD_AND_RUNTIME_FIXED"
  | .runtime => "RUNTIME"

/-- Whether roots of the phase exist at run time. -/
def isRuntimeVisible : ConfigPhase → Bool
  | .buildOnly => false
  | .buildAndRuntimeFixed => true
  | .runtime => true

end ConfigPhase

/-- A declared configuration root. -/
structure ConfigRoot where
  rootClass : QualifiedName
  phase : ConfigPhase
  deriving DecidableEq

/-- What answers questions about the analysed program. -/
structure MetadataSource where
  /-- The injection points, in the order in which they were found. -/
  injectionPoints : List InjectionPoint
  /-- The class of a name. -/
  classEntry? : QualifiedName → Option ClassEntry
  /-- The declarations that carry an annotation. -/
  declarations : QualifiedName → List Declaration
  /-- The configuration roots. -/
  configRoots : List ConfigRoot

/-- Metadata as lists. -/
structure Snapshot where
  classes : List ClassEntry
  injectionPoints : List InjectionPoint
  declarations : List Declaration
  configRoots : List ConfigRoot
  deriving DecidableEq, Inhabited

/-- What makes a snapshot unsound. -/
inductive SnapshotFault where
  | blankName
  | repeatedName (name : QualifiedName)
  deriving DecidableEq, Repr

def SnapshotFault.message : SnapshotFault → String
  | .blankName => "class with an empty name"
  | .repeatedName n => s!"class {n.text} is indexed more than once"

namespace Snapshot

/-- The snapshot that holds nothing. -/
def empty : Snapshot := ⟨[], [], [], []⟩

/-- The first class of a name. -/
def classEntry? (s : Snapshot) (name : QualifiedName) : Option ClassEntry :=
  s.classes.find? fun c => c.name = name

/-- The declarations that carry an annotation, in order. -/
def declarationsOf (s : Snapshot) (name : QualifiedName) : List Declaration :=
  s.declarations.filter fun d => d.attached.name = name

/-- The snapshot as a source. -/
def source (s : Snapshot) : MetadataSource where
  injectionPoints := s.injectionPoints
  classEntry? := s.classEntry?
  declarations := s.declarationsOf
  configRoots := s.configRoots

/-- The first fault of a list of classes, some names having been seen before. -/
def firstFault (seen : List QualifiedName) : List ClassEntry → Option SnapshotFault
  | [] => none
  | c :: rest =>
    if c.name.isBlank then some .blankName
    else if c.name ∈ seen then some (.repeatedName c.name)
    else firstFault (c.name :: seen) rest

/-- Finds the snapshot sound, or gives its first fault. -/
def validate (s : Snapshot) : Except SnapshotFault Unit :=
  match firstFault [] s.classes with
  | none => .ok ()
  | some fault => .error fault

end Snapshot

end ConfigBinder
