/-
Values of configuration roots at run time.

Each root has a slot, which is filled when its phase has come.  A creator reads the
slot of its root, and fails while the slot is empty.

A slot takes values of any type, and a creator may ask for one of a certain type.  So all
that is known of the values is that each can tell its type.
-/
import ConfigBinder.Build.Component

namespace ConfigBinder

/-- Values of different types that can tell which type they are of. -/
class Typed (Value : Type) (Kind : outParam Type) where
  /-- The type of a value. -/
  type : Value → Kind

/-- The values that roots have by default: integers and texts. -/
inductive RootValue where
  | integer (value : Int64)
  | text (value : String)
  deriving DecidableEq, Repr

/-- What type a default value can be asked for as. -/
inductive RootType where
  | integer
  | text
  deriving DecidableEq, Repr

/-- The type of a value. -/
def RootValue.type : RootValue → RootType
  | .integer _ => .integer
  | .text _ => .text

instance : Typed RootValue RootType := ⟨RootValue.type⟩

/-- The filled slots. -/
structure RootSlots (Value : Type := RootValue) where
  filled : OrderedMap QualifiedName Value
  deriving DecidableEq

namespace RootSlots

variable {Value : Type}

/-- No slot is filled. -/
def empty : RootSlots Value := ⟨∅⟩

/-- Fills the slot of a root, whatever it holds. -/
def set (s : RootSlots Value) (root : QualifiedName) (value : Value) : RootSlots Value :=
  ⟨s.filled.insert root value⟩

/-- Empties the slot of a root. -/
def clear (s : RootSlots Value) (root : QualifiedName) : RootSlots Value :=
  ⟨s.filled.erase root⟩

/-- What the slot of a root holds. -/
def get? (s : RootSlots Value) (root : QualifiedName) : Option Value := s.filled.get? root

end RootSlots

/-- Why a root cannot be had. -/
inductive CreationError where
  | notInitialized (root : QualifiedName) (phase : ConfigPhase)
  | typeMismatch (root : QualifiedName)
  deriving DecidableEq, Repr

namespace CreationError

def message : CreationError → String
  | .notInitialized root phase =>
    s!"Config root [{root.text}] with config phase [{phase.name}] not initialized yet."
  | .typeMismatch root => s!"Config root [{root.text}] holds a value of an unexpected type"

/-- Whether the slot was empty. -/
def isNotInitialized : CreationError → Bool
  | .notInitialized _ _ => true
  | .typeMismatch _ => false

end CreationError

/-- The creator behind the component of a configuration root. -/
structure RootCreator where
  root : QualifiedName
  phase : ConfigPhase
  deriving DecidableEq

namespace RootCreator

/-- The creator of a component that a root stands behind. -/
def ofComponent? (c : Component) : Option RootCreator :=
  match c.creator with
  | .root root phase => some ⟨root, phase⟩
  | _ => none

variable {Value Kind : Type}

/-- The value of the root. -/
def create (c : RootCreator) (slots : RootSlots Value) : Except CreationError Value :=
  match slots.get? c.root with
  | some v => .ok v
  | none => .error (.notInitialized c.root c.phase)

/-- The value of the root, if it has the wanted type. -/
def createAs [Typed Value Kind] [DecidableEq Kind] (c : RootCreator) (type : Kind)
    (slots : RootSlots Value) : Except CreationError Value := do
  let v ← c.create slots
  if Typed.type v = type then .ok v else .error (.typeMismatch c.root)

end RootCreator

end ConfigBinder
