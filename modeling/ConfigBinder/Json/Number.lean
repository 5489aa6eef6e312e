/-
Numbers in JSON text.

A number has at least one digit before the point and behind it, no needless zero
in front, and no sign but a minus.  Without fraction and exponent it is an integer
when 64 bits hold it; minus zero is none.  Every other number must be in the range of
floating point, by an estimate: as many digits as 64 bits hold and the power of ten are
rounded, each for itself, and then their product.
-/
import ConfigBinder.Decimal.Binary64
import ConfigBinder.Json.Basic

namespace ConfigBinder.Json.Number

open Decimal

/-- The least magnitude that rounds to no finite number. -/
def overflow : Nat := Nat.pow 2 1024 - Nat.pow 2 970

/-- Reads digits behind a number as long as 64 bits hold the number that they make of
it, and gives the digits that are left. -/
def takeDigits : Nat → List Char → Nat × List Char
  | n, [] => (n, [])
  | n, c :: rest =>
    let next := 10 * n + digitValue c
    if next < Nat.pow 2 64 then takeDigits next rest else (n, c :: rest)

/-- The digits of a numeral that 64 bits hold, before the point and from there on behind
it, with the power of ten of the last of them. -/
def leading (n : Numeral) : Nat × Int :=
  let (whole, uncounted) := takeDigits 0 n.whole
  let (significand, rest) := takeDigits whole n.fraction
  (significand, n.exponent + uncounted.length + rest.length - n.fraction.length)

/-- A number rounded to 53 bits, a tie to the even one. -/
def roundTo53 (n : Nat) : Nat :=
  let unit := Nat.pow 2 (n.log2 - 52)
  roundDiv n unit * unit

/-- Whether a numeral is estimated to lie beyond the range of floating point. -/
def isBeyond (n : Numeral) : Bool :=
  let (significand, scale) := leading n
  significand ≠ 0 &&
    (308 < scale ||
      (0 ≤ scale && overflow ≤ roundTo53 significand * roundTo53 (powUp 10 scale)))

/-- A number that is no integer: its spelling, unless it is beyond the range. -/
def real (spelling : List Char) (n : Numeral) : Json :=
  if isBeyond n then .flawed else .real (String.ofList spelling)

/-- The value of a whole number. -/
def whole (negative : Bool) (ds : List Char) : Json :=
  let n := value ds
  if negative then
    if n = 0 ∨ Nat.pow 2 63 < n then real ('-' :: ds) ⟨true, ds, [], 0⟩ else .int (-n)
  else if n < Nat.pow 2 64 then .int n
  else real ds ⟨false, ds, [], 0⟩

/-- The digits of a fraction, none when the text has no point. -/
def fraction? : List Char → Option (Option (List Char) × List Char)
  | '.' :: rest =>
    match rest.takeWhile Char.isDigit with
    | [] => none
    | ds => some (some ds, rest.dropWhile Char.isDigit)
  | rest => some (none, rest)

/-- An exponent as it is written. -/
structure Exponent where
  /-- The letter in front. -/
  letter : Char
  /-- The sign, if there is one. -/
  sign : Option Char
  digits : List Char
  deriving DecidableEq, Repr

namespace Exponent

/-- The characters of an exponent. -/
def spelling (e : Exponent) : List Char := e.letter :: e.sign.toList ++ e.digits

/-- The power of ten that an exponent states. -/
def power (e : Exponent) : Int :=
  if e.sign = some '-' then -(value e.digits : Int) else value e.digits

/-- The sign in front of an exponent's digits. -/
def sign? : List Char → Option Char
  | c :: _ => if c = '-' ∨ c = '+' then some c else none
  | [] => none

end Exponent

/-- An exponent, none when the text has none. -/
def exponent? : List Char → Option (Option Exponent × List Char)
  | c :: rest =>
    if c = 'e' ∨ c = 'E' then
      let sign := Exponent.sign? rest
      let rest := rest.drop sign.toList.length
      match rest.takeWhile Char.isDigit with
      | [] => none
      | ds => some (some ⟨c, sign, ds⟩, rest.dropWhile Char.isDigit)
    else some (none, c :: rest)
  | [] => some (none, [])

/-- The value of a number, given its parts. -/
def ofParts (negative : Bool) (ds : List Char) (fraction : Option (List Char))
    (exponent : Option Exponent) : Json :=
  match fraction, exponent with
  | none, none => whole negative ds
  | _, _ =>
    let sign := if negative then ['-'] else []
    let point := fraction.elim [] ('.' :: ·)
    let power := exponent.elim 0 Exponent.power
    real (sign ++ ds ++ point ++ exponent.elim [] Exponent.spelling)
      ⟨negative, ds, fraction.getD [], power⟩

/-- Reads a number, and gives what follows it. -/
def read (cs : List Char) : Option (Json × List Char) := do
  let (negative, start) :=
    match cs with
    | '-' :: rest => (true, rest)
    | _ => (false, cs)
  let ds := start.takeWhile Char.isDigit
  if ds = [] ∨ (ds.length ≠ 1 ∧ ds.head? = some '0') then none
  else
    let (fraction, rest) ← fraction? (start.dropWhile Char.isDigit)
    let (exponent, rest) ← exponent? rest
    some (ofParts negative ds fraction exponent, rest)

end ConfigBinder.Json.Number
