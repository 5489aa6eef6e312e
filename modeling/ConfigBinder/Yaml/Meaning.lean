/-
What scalars mean where any kind of value may stand.

A plain scalar is null, a truth value, an integer, a floating-point number or else a
text, in this order of trial.  A tag of the core schema forces one of them.  Digits
behind a needless zero are a text, and so is a number beyond the range of floating
point; an integer that needs more than 64 but no more than 128 bits is a fault.
-/
import ConfigBinder.Decimal.Binary64
import ConfigBinder.Yaml.Node

namespace ConfigBinder.Yaml

open Decimal

/-- What a scalar means. -/
inductive Meaning where
  | null
  | bool (value : Bool)
  /-- An integer without a minus sign. -/
  | natural (value : Nat)
  /-- An integer with a minus sign, which may stand before zero. -/
  | negative (magnitude : Nat)
  | float (value : Binary64)
  | infinity (negative : Bool)
  | notANumber
  | text (value : String)
  deriving DecidableEq

namespace Meaning

/-- Whether a text spells null. -/
def isNullWord (s : String) : Bool := ["null", "Null", "NULL", "~"].contains s

/-- The truth value that a text spells. -/
def truth? (s : String) : Option Bool :=
  if ["true", "True", "TRUE"].contains s then some true
  else if ["false", "False", "FALSE"].contains s then some false
  else none

/-! ### Integers -/

/-- The number that digits to a base stand for, of which there must be one. -/
def magnitude? (base : Nat) (ds : List Char) : Option Nat :=
  if ds = [] then none else Text.number? base ds

/-- Whether there are more digits behind a zero in front. -/
def hasNeedlessZero (cs : List Char) : Bool :=
  match (Numeral.sign cs).2 with
  | '0' :: c :: rest => (c :: rest).all Char.isDigit
  | _ => false

/-- The number that digits stand for, with a letter for their base in front or none. -/
def unsigned? : List Char → Option Nat
  | '0' :: 'x' :: ds => magnitude? 16 ds
  | '0' :: 'o' :: ds => magnitude? 8 ds
  | '0' :: 'b' :: ds => magnitude? 2 ds
  | ds => magnitude? 10 ds

/-- The integer that a text spells: whether it has a minus sign, and its magnitude. -/
def integer? (cs : List Char) : Option (Bool × Nat) :=
  if hasNeedlessZero cs then none
  else
    match cs with
    | '-' :: ds => (unsigned? ds).map (true, ·)
    | '+' :: ds => (unsigned? ds).map (false, ·)
    | ds => (unsigned? ds).map (false, ·)

/-- Whether an integer fits a number of bits: a sign takes one of them. -/
def fits (bits : Nat) (signed : Bool) (magnitude : Nat) : Bool :=
  if signed then magnitude ≤ Nat.pow 2 (bits - 1) else magnitude < Nat.pow 2 bits

/-! ### Floating-point numbers -/

/-- The words for infinity. -/
def infinityWords : List String := [".inf", ".Inf", ".INF"]

/-- The words for no number. -/
def nanWords : List String := [".nan", ".NaN", ".NAN"]

/-- The floating-point number that a text spells. -/
def float? (s : String) : Option Meaning :=
  if (infinityWords ++ infinityWords.map ("+" ++ ·)).contains s then some (.infinity false)
  else if (infinityWords.map ("-" ++ ·)).contains s then some (.infinity true)
  else if nanWords.contains s then some .notANumber
  else ((Numeral.ofChars? s.toList).bind Binary64.ofNumeral?).map .float

/-! ### Scalars -/

/-- The number that a text spells, if it is an integer or else a floating-point number;
`some none` is a fault. -/
def integerOf (s : String) : Option (Option Meaning) :=
  match integer? s.toList with
  | some (signed, n) =>
    if fits 64 signed n then some (some (if signed then .negative n else .natural n))
    else if fits 128 signed n then some none
    else none
  | none => none

/-- What a plain scalar without a tag means, none for a fault. -/
def ofPlain? (s : String) : Option Meaning :=
  if s = "" ∨ isNullWord s then some .null
  else
    match truth? s, integerOf s with
    | some b, _ => some (.bool b)
    | none, some m => m
    | none, none =>
      if hasNeedlessZero s.toList then some (.text s) else some ((float? s).getD (.text s))

/-- What a scalar means, none for a fault; a tag of the program's own is not looked
at. -/
def ofScalar? (tag : Option Tag) (style : ScalarStyle) (s : String) : Option Meaning :=
  match tag.filter (!·.isOwn) with
  | none => if style = .plain then ofPlain? s else some (.text s)
  | some t =>
    if t = .core "bool" then (truth? s).map .bool
    else if t = .core "int" then (integerOf s).join
    else if t = .core "float" then float? s
    else if t = .core "null" then (if isNullWord s then some .null else none)
    else some (.text s)

end Meaning

end ConfigBinder.Yaml
