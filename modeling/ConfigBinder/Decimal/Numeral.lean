/-
Decimal numerals with a fraction and an exponent.

A numeral has a sign or none, digits with at most one point among, before or
behind them, and an exponent or none.  Beside numerals the words for infinity
and for no number are floating-point text, in any case of letters.
-/
import ConfigBinder.Decimal.Digits

namespace ConfigBinder.Decimal

/-- A power with an exponent that is cut off at zero. -/
def powUp (base : Nat) (e : Int) : Nat := Nat.pow base e.toNat

/-- A decimal numeral. -/
structure Numeral where
  /-- Whether a minus sign stands in front. -/
  negative : Bool
  /-- The digits before the point. -/
  whole : List Char
  /-- The digits behind the point. -/
  fraction : List Char
  /-- The power of ten that the digits are scaled by. -/
  exponent : Int
  deriving DecidableEq, Repr

namespace Numeral

/-- All digits as one number. -/
def significand (n : Numeral) : Nat := value (n.whole ++ n.fraction)

/-- The power of ten of the last digit. -/
def scale (n : Numeral) : Int := n.exponent - n.fraction.length

/-- A sign in front of a text, and what follows it. -/
def sign : List Char → Bool × List Char
  | '-' :: rest => (true, rest)
  | '+' :: rest => (false, rest)
  | cs => (false, cs)

/-- The exponent that the rest of a numeral states: none at all counts as zero,
and nothing may follow. -/
def exponent? : List Char → Option Int
  | [] => some 0
  | c :: rest =>
    if c = 'e' ∨ c = 'E' then
      let (negative, ds) := sign rest
      if ds ≠ [] ∧ ds.all Char.isDigit then
        some (if negative then -(value ds : Int) else value ds)
      else none
    else none

/-- The numeral that the characters after the sign spell. -/
def unsigned? (negative : Bool) (cs : List Char) : Option Numeral :=
  let whole := cs.takeWhile Char.isDigit
  let (fraction, rest) :=
    match cs.dropWhile Char.isDigit with
    | '.' :: r => (r.takeWhile Char.isDigit, r.dropWhile Char.isDigit)
    | r => ([], r)
  if whole = [] ∧ fraction = [] then none
  else (exponent? rest).map (⟨negative, whole, fraction, ·⟩)

/-- The numeral that a text spells. -/
def ofChars? (cs : List Char) : Option Numeral :=
  let (negative, rest) := sign cs
  unsigned? negative rest

end Numeral

/-- Why a text is no floating-point number. -/
inductive FloatFault where
  | emptyText
  | invalid
  deriving DecidableEq, Repr

/-- The wording of the fault. -/
def FloatFault.message : FloatFault → String
  | .emptyText => "cannot parse float from empty string"
  | .invalid => "invalid float literal"

/-- The words that stand for infinity and for no number, in small letters. -/
def specialWords : List (List Char) := ["inf".toList, "infinity".toList, "nan".toList]

/-- Whether a text denotes a floating-point number, of whatever size. -/
def checkFloat (cs : List Char) : Except FloatFault Unit :=
  if cs = [] then .error .emptyText
  else if (Numeral.ofChars? cs).isSome ∨
      specialWords.contains ((Numeral.sign cs).2.map Char.toLower) then .ok ()
  else .error .invalid

end ConfigBinder.Decimal
