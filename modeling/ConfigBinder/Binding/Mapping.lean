/-
Interfaces that map configuration.

A declared interface is loaded and handed to an emitter, which makes an
implementation for it and for each group inside it.  What one declaration adds is
added as a whole: when the class does not load or nothing can be made, it adds
nothing.
-/
import ConfigBinder.Binding.Error
import ConfigBinder.Build.Collected
import ConfigBinder.Settings

namespace ConfigBinder

/-- A class as the loader gives it. -/
structure LoadedClass where
  name : QualifiedName
  isInterface : Bool
  methods : List Method
  deriving DecidableEq

/-- Finds a class by name, or says why not. -/
abbrev ClassLoader := QualifiedName → Except String LoadedClass

/-- The implementation of one group of a mapping. -/
structure Implementation where
  className : String
  bytes : List UInt8
  interface : QualifiedName
  deriving DecidableEq

/-- Makes the implementations of a mapping under a prefix, or says why not. -/
abbrev MappingEmitter := LoadedClass → String → Except String (List Implementation)

/-- The loader that answers from the indexed classes of a source. -/
def MetadataSource.loader (source : MetadataSource) : ClassLoader := fun name =>
  match source.classEntry? name with
  | some c => .ok ⟨c.name, c.isInterface, c.methods⟩
  | none => .error s!"class {name.text} is not present in the index"

/-- What the stages of a pass work with. -/
structure BindingContext where
  settings : Settings
  source : MetadataSource
  loader : ClassLoader
  emitter : MappingEmitter

namespace ConfigMapping

/-- The parameter that holds the interface to implement. -/
def interfaceParam : String := "type"

/-- The component that a mapping interface is injected as. -/
def component (settings : Settings) (interface : QualifiedName) : Component :=
  Component.build interface
    [.addType (.named interface), .creator (.mapping settings.mappingCreator),
      .param interfaceParam (.type interface)]

/-- What one implementation keeps reachable: the methods of its interface and its own
constructors. -/
def reflective (i : Implementation) : List ReflectiveClass :=
  [.withMethods i.interface.text, .withConstructors i.className]

/-- The generated class of an implementation. -/
def generated (i : Implementation) : GeneratedClass :=
  ⟨i.className, i.bytes, i.interface, true⟩

/-- What a mapping with its implementations adds. -/
def contribution (settings : Settings) (interface : QualifiedName) (keyPrefix : String)
    (implementations : List Implementation) : Collected :=
  { (∅ : Collected) with
    synthetic := [component settings interface]
    reflective := implementations.flatMap reflective
    generated := implementations.map generated
    mappings := [⟨interface, keyPrefix, implementations.map (·.className)⟩] }

/-- What the declaration of a mapping on an interface adds. -/
def bind (context : BindingContext) (interface : QualifiedName) (keyPrefix : String) :
    Except BindingError Collected :=
  match context.loader interface with
  | .error reason => .error (.classLoading interface reason)
  | .ok loaded =>
    match context.emitter loaded keyPrefix with
    | .error reason => .error (.mappingGeneration interface reason)
    | .ok [] => .error (.mappingGeneration interface "no implementation was generated")
    | .ok (i :: rest) => .ok (contribution context.settings interface keyPrefix (i :: rest))

/-- The prefix that a declaration states, the empty one by default. -/
def statedPrefix (d : Declaration) : String := (d.attached.value? "prefix").getD ""

/-- The interfaces with the prefixes that declarations bind; a declaration that stands
on a member binds none. -/
def declared (declarations : List Declaration) : List (QualifiedName × String) :=
  declarations.filterMap fun d =>
    match d.target with
    | .onClass name => some (name, statedPrefix d)
    | _ => none

/-- What a row of mappings adds, up to the first that fails. -/
def bindAll (context : BindingContext) :
    List (QualifiedName × String) → Collected × Except BindingError Unit
  | [] => (∅, .ok ())
  | (interface, keyPrefix) :: rest =>
    match bind context interface keyPrefix with
    | .error e => (∅, .error e)
    | .ok added =>
      let (others, outcome) := bindAll context rest
      (added ++ others, outcome)

/-- What all mappings that a source declares add, up to the first that fails. -/
def generate (context : BindingContext) : Collected × Except BindingError Unit :=
  bindAll context
    (declared (context.source.declarations context.settings.mappingAnnotation))

end ConfigMapping

end ConfigBinder
