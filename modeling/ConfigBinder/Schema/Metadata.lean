/-
The written form of metadata.

A snapshot is a record of four lists, each of which may be left out when it is empty.
-/
import ConfigBinder.Metadata.Snapshot
import ConfigBinder.Schema.Type

namespace ConfigBinder

open Document

variable {δ : Type} {m : Type → Type} [Monad m] [MonadLiftT Option m] [Document δ m]

namespace Annotation

def toJson (a : Annotation) : Json :=
  .object [("name", a.name.toJson),
    ("values", .object (a.values.entries.map fun (k, v) => (k, .text v)))]

/-- The attributes that a document holds; the last value of a key counts. -/
def valuesOfDocument? (d : δ) : m (OrderedMap String String) :=
  .ofList <$> map? text? d

/-- The annotation that a document is. -/
def ofDocument? (d : δ) : m Annotation := do
  let get ← fields? ["name", "values"] d
  return {
      name := ← required QualifiedName.ofDocument? (get "name")
      values := ← orDefault ∅ valuesOfDocument? (get "values") }

end Annotation

namespace InjectionTarget

def toJson : InjectionTarget → Json
  | .field c n =>
    .object [("kind", .text "field"), ("declaring_class", c.toJson), ("name", .text n)]
  | .parameter c m p n =>
    .object [("kind", .text "parameter"), ("declaring_class", c.toJson), ("method", .text m),
      ("position", .nat p.toNat), ("name", .text n)]
  | .method c n =>
    .object [("kind", .text "method"), ("declaring_class", c.toJson), ("name", .text n)]
  | .onClass n => .object [("kind", .text "class"), ("name", n.toJson)]

inductive Kind where
  | field
  | parameter
  | method
  | onClass
  deriving DecidableEq, Repr

def kinds : List (String × Kind) :=
  [("field", .field), ("parameter", .parameter), ("method", .method), ("class", .onClass)]

/-- The position that a value read ahead is. -/
def positionOfDatum? (d : Datum) : Option UInt64 := do
  let n ← d.natural?
  if n < UInt64.size then some (.ofNat n) else none

/-- The target that a record of a known kind is. -/
def ofKinded? (k : Kinded) : Option InjectionTarget := do
  match ← k.kind.pick? kinds with
  | .field =>
    let get ← k.rest.fields? ["declaring_class", "name"]
    some (.field (← (get "declaring_class").bind QualifiedName.ofDatum?)
      (← (get "name").bind Datum.text?))
  | .parameter =>
    let get ← k.rest.fields? ["declaring_class", "method", "position", "name"]
    some (.parameter (← (get "declaring_class").bind QualifiedName.ofDatum?)
      (← (get "method").bind Datum.text?) (← (get "position").bind positionOfDatum?)
      (← (get "name").bind Datum.text?))
  | .method =>
    let get ← k.rest.fields? ["declaring_class", "name"]
    some (.method (← (get "declaring_class").bind QualifiedName.ofDatum?)
      (← (get "name").bind Datum.text?))
  | .onClass =>
    let get ← k.rest.fields? ["name"]
    some (.onClass (← (get "name").bind QualifiedName.ofDatum?))

/-- The target that a document is. -/
def ofDocument? (d : δ) : m InjectionTarget := do ofKinded? (← kinded? d)

end InjectionTarget

namespace InjectionPoint

def toJson (p : InjectionPoint) : Json :=
  .object [("target", p.target.toJson), ("required_type", p.requiredType.toJson),
    ("qualifiers", .array (p.qualifiers.map Annotation.toJson)),
    ("defaulted_qualifier", .bool p.defaulted)]

/-- The injection point that a document is. -/
def ofDocument? (d : δ) : m InjectionPoint := do
  let get ← fields? ["target", "required_type", "qualifiers", "defaulted_qualifier"] d
  return {
      target := ← required InjectionTarget.ofDocument? (get "target")
      requiredType := ← required TypeRef.ofDocument? (get "required_type")
      qualifiers := ← orDefault [] (list? Annotation.ofDocument?) (get "qualifiers")
      defaulted := ← orDefault false flag? (get "defaulted_qualifier") }

end InjectionPoint

namespace DeclarationTarget

def toJson : DeclarationTarget → Json
  | .onClass n => .object [("kind", .text "class"), ("name", n.toJson)]
  | .field c n =>
    .object [("kind", .text "field"), ("declaring_class", c.toJson), ("name", .text n)]
  | .method c n =>
    .object [("kind", .text "method"), ("declaring_class", c.toJson), ("name", .text n)]

inductive Kind where
  | onClass
  | field
  | method
  deriving DecidableEq, Repr

def kinds : List (String × Kind) :=
  [("class", .onClass), ("field", .field), ("method", .method)]

/-- The target that a record of a known kind is. -/
def ofKinded? (k : Kinded) : Option DeclarationTarget := do
  match ← k.kind.pick? kinds with
  | .onClass =>
    let get ← k.rest.fields? ["name"]
    some (.onClass (← (get "name").bind QualifiedName.ofDatum?))
  | .field =>
    let get ← k.rest.fields? ["declaring_class", "name"]
    some (.field (← (get "declaring_class").bind QualifiedName.ofDatum?)
      (← (get "name").bind Datum.text?))
  | .method =>
    let get ← k.rest.fields? ["declaring_class", "name"]
    some (.method (← (get "declaring_class").bind QualifiedName.ofDatum?)
      (← (get "name").bind Datum.text?))

/-- The target that a document is. -/
def ofDocument? (d : δ) : m DeclarationTarget := do ofKinded? (← kinded? d)

end DeclarationTarget

namespace Declaration

def toJson (x : Declaration) : Json :=
  .object [("annotation", x.attached.toJson), ("target", x.target.toJson)]

/-- The declaration that a document is. -/
def ofDocument? (d : δ) : m Declaration := do
  let get ← fields? ["annotation", "target"] d
  return {
      attached := ← required Annotation.ofDocument? (get "annotation")
      target := ← required DeclarationTarget.ofDocument? (get "target") }

end Declaration

namespace Method

def toJson (m : Method) : Json :=
  .object [("name", .text m.name), ("return_type", m.returnType.toJson)]

/-- The method that a document is. -/
def ofDocument? (d : δ) : m Method := do
  let get ← fields? ["name", "return_type"] d
  return {
      name := ← required text? (get "name")
      returnType := ← required TypeRef.ofDocument? (get "return_type") }

end Method

namespace ClassEntry

def toJson (c : ClassEntry) : Json :=
  .object [("name", c.name.toJson),
    ("enclosing_class", (c.enclosing.map QualifiedName.toJson).getD .null),
    ("interface", .bool c.isInterface), ("methods", .array (c.methods.map Method.toJson))]

/-- The class that a document is. -/
def ofDocument? (d : δ) : m ClassEntry := do
  let get ← fields? ["name", "enclosing_class", "interface", "methods"] d
  return {
      name := ← required QualifiedName.ofDocument? (get "name")
      enclosing := ← orDefault none (option? QualifiedName.ofDocument?) (get "enclosing_class")
      isInterface := ← orDefault false flag? (get "interface")
      methods := ← orDefault [] (list? Method.ofDocument?) (get "methods") }

end ClassEntry

namespace ConfigPhase

def named : List (String × ConfigPhase) :=
  [("BUILD_ONLY", .buildOnly), ("BUILD_AND_RUNTIME_FIXED", .buildAndRuntimeFixed),
    ("RUNTIME", .runtime)]

def toJson (p : ConfigPhase) : Json := .text p.name

/-- The phase that a document names. -/
def ofDocument? (d : δ) : m ConfigPhase := oneOf? named d

/-- The phase that a value read ahead names. -/
def ofDatum? (d : Datum) : Option ConfigPhase := d.choice?.bind (Selector.pick? named)

end ConfigPhase

namespace ConfigRoot

def toJson (r : ConfigRoot) : Json :=
  .object [("class", r.rootClass.toJson), ("phase", r.phase.toJson)]

/-- The root that a document is. -/
def ofDocument? (d : δ) : m ConfigRoot := do
  let get ← fields? ["class", "phase"] d
  return {
      rootClass := ← required QualifiedName.ofDocument? (get "class")
      phase := ← required ConfigPhase.ofDocument? (get "phase") }

end ConfigRoot

namespace Snapshot

def toJson (s : Snapshot) : Json :=
  .object [("classes", .array (s.classes.map ClassEntry.toJson)),
    ("injection_points", .array (s.injectionPoints.map InjectionPoint.toJson)),
    ("declarations", .array (s.declarations.map Declaration.toJson)),
    ("config_roots", .array (s.configRoots.map ConfigRoot.toJson))]

/-- The snapshot that a document is. -/
def ofDocument? (d : δ) : m Snapshot := do
  let get ← fields? ["classes", "injection_points", "declarations", "config_roots"] d
  return {
      classes := ← orDefault [] (list? ClassEntry.ofDocument?) (get "classes")
      injectionPoints :=
        ← orDefault [] (list? InjectionPoint.ofDocument?) (get "injection_points")
      declarations := ← orDefault [] (list? Declaration.ofDocument?) (get "declarations")
      configRoots := ← orDefault [] (list? ConfigRoot.ofDocument?) (get "config_roots") }

end Snapshot

end ConfigBinder
