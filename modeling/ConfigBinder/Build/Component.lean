/-
Components that a build adds to the container without a declaration in the program.

A component says what it is created as, what it can be injected as, by whom it is
created and with which parameters.  It is made in steps; what no step sets follows
from its implementation class.
-/
import ConfigBinder.Metadata.Snapshot

namespace ConfigBinder

/-- How long an instance lives. -/
inductive Scope where
  /-- Each injection point gets an instance of its own. -/
  | dependent
  /-- One instance serves the application. -/
  | singleton
  deriving DecidableEq, Repr, Inhabited

def Scope.name : Scope → String
  | .dependent => "dependent"
  | .singleton => "singleton"

/-- How the container gets an instance. -/
inductive Creator where
  /-- A configuration value is converted to the required type. -/
  | bean (creator : QualifiedName)
  /-- The implementation of a mapping interface is instantiated. -/
  | mapping (creator : QualifiedName)
  /-- A configuration root is read from its slot. -/
  | root (root : QualifiedName) (phase : ConfigPhase)
  deriving DecidableEq

/-- The value of a creator's parameter. -/
inductive ParamValue where
  | text (value : String)
  | type (name : QualifiedName)
  deriving DecidableEq

/-- A component of the container. -/
structure Component where
  implementation : QualifiedName
  providerType : TypeRef
  types : List TypeRef
  qualifiers : List QualifiedName
  scope : Scope
  creator : Creator
  params : OrderedMap String ParamValue
  deriving DecidableEq

namespace Component

/-- The value of a parameter. -/
def param? (c : Component) (name : String) : Option ParamValue := c.params.get? name

/-- One step in making a component. -/
inductive Step where
  | providerType (type : TypeRef)
  | addType (type : TypeRef)
  | addQualifier (name : QualifiedName)
  | scope (scope : Scope)
  | creator (creator : Creator)
  | param (name : String) (value : ParamValue)
  deriving DecidableEq

/-- A component in the making. -/
structure Draft where
  implementation : QualifiedName
  providerType : Option TypeRef
  types : List TypeRef
  qualifiers : List QualifiedName
  scope : Scope
  creator : Option Creator
  params : OrderedMap String ParamValue
  deriving DecidableEq

namespace Draft

/-- Nothing but the implementation is known yet. -/
def start (implementation : QualifiedName) : Draft :=
  ⟨implementation, none, [], [], .dependent, none, ∅⟩

/-- Takes a step. -/
def step (d : Draft) : Step → Draft
  | .providerType t => { d with providerType := some t }
  | .addType t => { d with types := d.types ++ [t] }
  | .addQualifier q => { d with qualifiers := d.qualifiers ++ [q] }
  | .scope s => { d with scope := s }
  | .creator c => { d with creator := some c }
  | .param n v => { d with params := d.params.insert n v }

/-- The component: without a provider type it is the implementation class, without
types it is injectable as its provider type, and without a creator the
implementation creates it. -/
def finish (d : Draft) : Component :=
  let providerType := d.providerType.getD (.named d.implementation)
  { implementation := d.implementation
    providerType := providerType
    types := if d.types.isEmpty then [providerType] else d.types
    qualifiers := d.qualifiers
    scope := d.scope
    creator := d.creator.getD (.bean d.implementation)
    params := d.params }

end Draft

/-- The component that a row of steps makes. -/
def build (implementation : QualifiedName) (steps : List Step) : Component :=
  (steps.foldl Draft.step (Draft.start implementation)).finish

end Component

end ConfigBinder
