/-
The items that a pass has collected so far.

Each kind has a list of its own, which only ever grows at its end.
-/
import ConfigBinder.Build.Item

namespace ConfigBinder

/-- The items of each kind, in the order of their production. -/
structure Collected where
  additional : List AdditionalComponent
  synthetic : List Component
  reflective : List ReflectiveClass
  generated : List GeneratedClass
  properties : List ConfigProperty
  mappings : List ConfigMapping
  deriving DecidableEq

namespace Collected

/-- Nothing collected. -/
def empty : Collected := ⟨[], [], [], [], [], []⟩

instance : EmptyCollection Collected := ⟨empty⟩

/-- The items of the second behind those of the first. -/
def append (a b : Collected) : Collected where
  additional := a.additional ++ b.additional
  synthetic := a.synthetic ++ b.synthetic
  reflective := a.reflective ++ b.reflective
  generated := a.generated ++ b.generated
  properties := a.properties ++ b.properties
  mappings := a.mappings ++ b.mappings

instance : Append Collected := ⟨append⟩

theorem append_def (a b : Collected) : a ++ b = a.append b := rfl

@[simp] theorem append_additional (a b : Collected) :
    (a ++ b).additional = a.additional ++ b.additional := rfl

@[simp] theorem append_synthetic (a b : Collected) :
    (a ++ b).synthetic = a.synthetic ++ b.synthetic := rfl

@[simp] theorem append_reflective (a b : Collected) :
    (a ++ b).reflective = a.reflective ++ b.reflective := rfl

@[simp] theorem append_generated (a b : Collected) :
    (a ++ b).generated = a.generated ++ b.generated := rfl

@[simp] theorem append_properties (a b : Collected) :
    (a ++ b).properties = a.properties ++ b.properties := rfl

@[simp] theorem append_mappings (a b : Collected) :
    (a ++ b).mappings = a.mappings ++ b.mappings := rfl

@[simp] theorem empty_additional : (∅ : Collected).additional = [] := rfl

@[simp] theorem empty_synthetic : (∅ : Collected).synthetic = [] := rfl

@[simp] theorem empty_reflective : (∅ : Collected).reflective = [] := rfl

@[simp] theorem empty_generated : (∅ : Collected).generated = [] := rfl

@[simp] theorem empty_properties : (∅ : Collected).properties = [] := rfl

@[simp] theorem empty_mappings : (∅ : Collected).mappings = [] := rfl

theorem append_assoc (a b c : Collected) : a ++ b ++ c = a ++ (b ++ c) := by
  simp only [append_def, append, List.append_assoc]

theorem append_empty (a : Collected) : a ++ ∅ = a := by
  cases a
  simp only [append_def, append, EmptyCollection.emptyCollection, empty, List.append_nil]

end Collected

end ConfigBinder
