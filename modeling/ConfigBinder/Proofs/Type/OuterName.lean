/-
How an outer name writes array levels.

A type is its core with array levels around it, and its outer name is the core's with
one pair of brackets for each level, the `arrayName`.  Taken from its end the name gives the
levels back, unless the core's own name ends in brackets (`endsInBrackets`): then the name is
also that of an array with more levels.
-/
import ConfigBinder.Type.Coverage

namespace ConfigBinder

namespace QualifiedName

/-- A name with brackets behind it for a number of array levels. -/
def arrayName (base : String) : Nat → String
  | 0 => base
  | n + 1 => arrayName base n ++ "[]"

/-- Whether a name ends in a pair of brackets. -/
def endsInBrackets (name : String) : Bool := ['[', ']'].isSuffixOf name.toList

theorem endsInBrackets_append (name : String) : endsInBrackets (name ++ "[]") = true := by
  simp [endsInBrackets]

end QualifiedName

namespace TypeRef

open QualifiedName

/-- The array levels around the core of a type. -/
def levels : TypeRef → Nat
  | .array e => e.levels + 1
  | _ => 0

/-- The core of a type is no array. -/
theorem isArray_core (t : TypeRef) : t.core.isArray = false := by
  fun_induction core t with
  | case1 e ih => exact ih
  | case2 t hcore =>
      cases t with
      | primitive p | named n | applied n arguments => rfl
      | array e => exact absurd rfl (hcore e)

/-- The outer name is the `arrayName` of the core's, for the `levels` around it. -/
theorem outerName_text (t : TypeRef) :
    t.outerName.text = arrayName t.core.outerName.text t.levels := by
  fun_induction core t with
  | case1 e ih =>
      show e.outerName.text ++ "[]" = arrayName e.core.outerName.text e.levels ++ "[]"
      rw [ih]
  | case2 t hcore =>
      cases t with
      | primitive p | named n | applied n arguments => rfl
      | array e => exact absurd rfl (hcore e)

/-- None of the `suppliedClasses` is named like an array. -/
theorem endsInBrackets_of_mem_suppliedClasses :
    ∀ name ∈ suppliedClasses, endsInBrackets name = false := by decide

end TypeRef

/-- No primitive type is named like an array. -/
theorem Primitive.endsInBrackets_name (p : Primitive) :
    QualifiedName.endsInBrackets p.name = false := by
  cases p <;> decide

end ConfigBinder
