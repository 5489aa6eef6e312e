/-
References to types.

A reference names a primitive type, a class, a class applied to type arguments, or
an array of some element.  Its outer name leaves the arguments out and writes a
pair of brackets behind the element for an array.
-/
import ConfigBinder.Type.Name

namespace ConfigBinder

/-- The primitive types. -/
inductive Primitive where
  | boolean
  | byte
  | short
  | int
  | long
  | float
  | double
  | char
  deriving DecidableEq, Repr, Inhabited

namespace Primitive

/-- The primitive types with their names. -/
def named : List (String × Primitive) :=
  [("boolean", .boolean), ("byte", .byte), ("short", .short), ("int", .int), ("long", .long),
    ("float", .float), ("double", .double), ("char", .char)]

/-- The name of a primitive type. -/
def name : Primitive → String
  | .boolean => "boolean"
  | .byte => "byte"
  | .short => "short"
  | .int => "int"
  | .long => "long"
  | .float => "float"
  | .double => "double"
  | .char => "char"

/-- The primitive type of a name. -/
def ofName? (s : String) : Option Primitive := named.lookup s

end Primitive

/-- A type as it is asked for. -/
inductive TypeRef where
  | primitive (kind : Primitive)
  | named (name : QualifiedName)
  | applied (name : QualifiedName) (arguments : List TypeRef)
  | array (element : TypeRef)
  deriving Inhabited

namespace TypeRef

mutual
/-- Whether two references are the same. -/
def decEq : (a b : TypeRef) → Decidable (a = b)
  | .primitive p, .primitive q => decidable_of_iff (p = q) (by simp)
  | .named m, .named n => decidable_of_iff (m = n) (by simp)
  | .applied m xs, .applied n ys =>
    have := decEqList xs ys
    decidable_of_iff (m = n ∧ xs = ys) (by simp)
  | .array a, .array b =>
    have := decEq a b
    decidable_of_iff (a = b) (by simp)
  | .primitive _, .named _ | .primitive _, .applied _ _ | .primitive _, .array _ =>
    isFalse (by simp)
  | .named _, .primitive _ | .named _, .applied _ _ | .named _, .array _ => isFalse (by simp)
  | .applied _ _, .primitive _ | .applied _ _, .named _ | .applied _ _, .array _ =>
    isFalse (by simp)
  | .array _, .primitive _ | .array _, .named _ | .array _, .applied _ _ => isFalse (by simp)
def decEqList : (xs ys : List TypeRef) → Decidable (xs = ys)
  | [], [] => isTrue rfl
  | x :: xs, y :: ys =>
    have := decEq x y
    have := decEqList xs ys
    decidable_of_iff (x = y ∧ xs = ys) (by simp)
  | [], _ :: _ | _ :: _, [] => isFalse (by simp)
end

instance : DecidableEq TypeRef := decEq

/-- The outer name: arguments are no part of it. -/
def outerName : TypeRef → QualifiedName
  | .primitive p => ⟨p.name⟩
  | .named n => n
  | .applied n _ => n
  | .array e => ⟨e.outerName.text ++ "[]"⟩

/-- Whether the type is an array. -/
def isArray : TypeRef → Bool
  | .array _ => true
  | _ => false

/-- Whether the type is primitive. -/
def isPrimitive : TypeRef → Bool
  | .primitive _ => true
  | _ => false

/-- The type left when all array levels are taken off. -/
def core : TypeRef → TypeRef
  | .array e => e.core
  | t => t

mutual
/-- The type as it is shown, its arguments between angle brackets. -/
def display : TypeRef → String
  | .primitive p => p.name
  | .named n => n.text
  | .applied n arguments => n.text ++ "<" ++ ", ".intercalate (displays arguments) ++ ">"
  | .array e => e.display ++ "[]"
def displays : List TypeRef → List String
  | [] => []
  | t :: rest => t.display :: displays rest
end

end TypeRef

end ConfigBinder
