/-
Qualified names of types.

A name is any text; its segments end at points and dollar signs, the latter between
a class and one declared inside it.
-/
import ConfigBinder.Text.Blank

namespace ConfigBinder

/-- The fully qualified name of a declared type. -/
structure QualifiedName where
  /-- The name as written. -/
  text : String
  deriving DecidableEq, Repr, Inhabited

namespace QualifiedName

/-- Names with one text are the same name. -/
theorem text_inj {a b : QualifiedName} : a.text = b.text ↔ a = b := by
  cases a
  cases b
  simp

/-- Names are ordered as their texts are, by code point. -/
instance : Ord QualifiedName := ⟨compareOn QualifiedName.text⟩

instance : Std.TransOrd QualifiedName :=
  inferInstanceAs (Std.TransCmp (compareOn QualifiedName.text))

instance : Std.LawfulEqOrd QualifiedName where
  compare_self {a} :=
    (inferInstance : Std.ReflCmp (compareOn QualifiedName.text)).compare_self (a := a)
  eq_of_compare {a b} h := by
    cases a
    cases b
    exact congrArg _ (Std.LawfulEqOrd.eq_of_compare h)

/-- Whether a character ends a segment. -/
def isSeparator (c : Char) : Bool := c = '.' || c = '$'

/-- The last segment. -/
def simple (n : QualifiedName) : String :=
  String.ofList (n.text.toList.reverse.takeWhile fun c => !isSeparator c).reverse

/-- Whether the name holds nothing but white space. -/
def isBlank (n : QualifiedName) : Bool := Text.allBlank n.text

end QualifiedName

end ConfigBinder
