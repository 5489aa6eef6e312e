/-
Types by name.

A name resolves to a converter when its type exists in the running program: the
built-in types do, the types that were made known explicitly do, and an array does
when its element does.  An explicit converter goes before a built-in one.
-/
import ConfigBinder.Ordered.Map
import ConfigBinder.Startup.Converter

namespace ConfigBinder

/-- Finds the converter of a type by name, none when there is no such type. -/
abbrev TypeResolver := String → Option Converter

/-- The types that were made known explicitly, with their converters. -/
structure KnownTypes where
  custom : OrderedMap String Converter

namespace KnownTypes

/-- Only the built-in types are known. -/
def builtinOnly : KnownTypes := ⟨∅⟩

/-- One more type with a converter; a later converter of one name replaces an earlier
one. -/
def withConverter (known : KnownTypes) (name : String) (converter : Converter) : KnownTypes :=
  ⟨known.custom.insert name converter⟩

/-- One more type that is made from any text. -/
def withImplicit (known : KnownTypes) (name : String) : KnownTypes :=
  known.withConverter name .anything

/-- More types that are made from any text. -/
def withImplicits (known : KnownTypes) (names : List String) : KnownTypes :=
  names.foldl withImplicit known

/-- The class around each primitive type. -/
def boxes : List (String × Primitive) :=
  [("java.lang.Boolean", .boolean), ("java.lang.Byte", .byte), ("java.lang.Short", .short),
    ("java.lang.Integer", .int), ("java.lang.Long", .long), ("java.lang.Float", .float),
    ("java.lang.Double", .double), ("java.lang.Character", .char)]

/-- The classes that take any text. -/
def textual : List String := ["java.lang.String", "java.util.List", "java.util.Set"]

/-- The converter of a built-in type that is no array. -/
def builtin? (name : String) : Option Converter :=
  if textual.contains name then some .anything
  else ((boxes.lookup name).or (Primitive.ofName? name)).map .primitive

/-- The converter of a type that is no array. -/
def element? (known : KnownTypes) (name : String) : Option Converter :=
  (known.custom.get? name).or (builtin? name)

/-- The converter of a type whose name is given from its end: each pair of brackets
there is one level of arrays. -/
def resolveReversed (known : KnownTypes) : List Char → Option Converter
  | ']' :: '[' :: rest => (resolveReversed known rest).map .array
  | cs => known.element? (String.ofList cs.reverse)

/-- The converter of a type by name. -/
def resolve (known : KnownTypes) : TypeResolver := fun name =>
  resolveReversed known name.toList.reverse

/-- An array is known when its element is. -/
theorem resolve_array (known : KnownTypes) (name : String) :
    known.resolve (name ++ "[]") = (known.resolve name).map .array := by
  simp [resolve, resolveReversed]

end KnownTypes

end ConfigBinder
