/-
Binary floating-point numbers of 64 bits, between exact fractions and decimal
digits.

A finite number is a mantissa below 2^53 times a power of two that is at least
2^-1074.  Reading rounds an exact fraction to the nearest such number, a tie to
the even mantissa.  Writing gives the fewest digits that read back as the same
number, of those the nearest: the decimals that do are an interval between the
midpoints to both neighbours, which holds its ends when the mantissa is even.
All arithmetic is on whole numbers.
-/
import ConfigBinder.Decimal.Digits
import ConfigBinder.Decimal.Numeral

namespace ConfigBinder.Decimal

/-- A finite number: the mantissa times two to the exponent, or its negative. -/
structure Binary64 where
  negative : Bool
  mantissa : Nat
  exponent : Int
  deriving DecidableEq, Repr

/-- A quotient rounded to the nearest whole number, a tie to the even one. -/
def roundDiv (num den : Nat) : Nat :=
  let q := num / den
  let twice := 2 * (num % den)
  if twice < den then q
  else if den < twice then q + 1
  else q + q % 2

namespace Binary64

/-- The largest power of two that is not above a positive fraction. -/
def binaryOrder (num den : Nat) : Int :=
  let s : Int := (num.log2 : Int) - den.log2
  if den * powUp 2 s ≤ num * powUp 2 (-s) then s else s - 1

/-- The mantissa and the exponent nearest to a fraction; none beyond the range. -/
def nearest? (num den : Nat) : Option (Nat × Int) :=
  if num = 0 then some (0, -1074)
  else
    let q := max (binaryOrder num den - 52) (-1074)
    let m := roundDiv (num * powUp 2 (-q)) (den * powUp 2 q)
    let (m, q) := if m = Nat.pow 2 53 then (Nat.pow 2 52, q + 1) else (m, q)
    if q ≤ 971 then some (m, q) else none

/-- The number of digits of a numeral's significand, leading zeros left out. -/
def significantDigits (n : Numeral) : Nat := (digits n.significand).length

/-- The finite number nearest to a numeral; none beyond the range.  A numeral far
outside the range is decided by its size alone. -/
def ofNumeral? (n : Numeral) : Option Binary64 :=
  if n.significand = 0 then some ⟨n.negative, 0, -1074⟩
  else
    let order := (significantDigits n : Int) + n.scale
    if 400 < order then none
    else if order < -400 then some ⟨n.negative, 0, -1074⟩
    else
      (nearest? (n.significand * powUp 10 n.scale) (powUp 10 (-n.scale))).map
        fun (m, q) => ⟨n.negative, m, q⟩

/-- A positive number as numerator and denominator, with the ends of the interval
of decimals that read back as it, all over one denominator. -/
structure Interval where
  low : Nat
  mid : Nat
  high : Nat
  den : Nat
  closed : Bool

/-- The interval of a number that is not zero. -/
def interval (x : Binary64) : Interval :=
  let unit := powUp 2 x.exponent
  let below := if x.mantissa = Nat.pow 2 52 ∧ -1074 < x.exponent then unit else 2 * unit
  { low := 4 * x.mantissa * unit - below
    mid := 4 * x.mantissa * unit
    high := 4 * x.mantissa * unit + 2 * unit
    den := 4 * powUp 2 (-x.exponent)
    closed := x.mantissa % 2 = 0 }

/-- Whether a whole number of units of ten to the `k` lies in the interval. -/
def Interval.holds (i : Interval) (c : Nat) (k : Int) : Bool :=
  let scaled := c * powUp 10 k * i.den
  let factor := powUp 10 (-k)
  if i.closed then i.low * factor ≤ scaled ∧ scaled ≤ i.high * factor
  else i.low * factor < scaled ∧ scaled < i.high * factor

/-- On the grid of multiples of ten to the `k`, the neighbour of the number that
lies in its interval; of two the nearer, of two as near the even one. -/
def Interval.onGrid (i : Interval) (k : Int) : Option Nat :=
  let num := i.mid * powUp 10 (-k)
  let den := i.den * powUp 10 k
  let floor := num / den
  match i.holds floor k, i.holds (floor + 1) k with
  | true, true => some (roundDiv num den)
  | true, false => some floor
  | false, true => some (floor + 1)
  | false, false => none

/-- The largest power of ten that is not above a positive fraction, found upwards
from a power that is not above it. -/
def decimalOrder (num den : Nat) : Nat → Int → Int
  | 0, p => p
  | fuel + 1, p =>
    if den * powUp 10 (p + 1) ≤ num * powUp 10 (-(p + 1)) then decimalOrder num den fuel (p + 1)
    else p

/-- The first grid with a neighbour in the interval, from coarse to fine. -/
def Interval.search (i : Interval) : Nat → Int → Nat × Int
  | 0, k => ((i.onGrid k).getD (i.mid / i.den), k)
  | fuel + 1, k =>
    match i.onGrid k with
    | some c => (c, k)
    | none => i.search fuel (k - 1)

/-- Takes the zeros off the end of a digit string, counting them into the scale. -/
def stripZeros : Nat → Nat → Int → Nat × Int
  | 0, c, k => (c, k)
  | fuel + 1, c, k => if c ≠ 0 ∧ c % 10 = 0 then stripZeros fuel (c / 10) (k + 1) else (c, k)

/-- The shortest significand and the power of ten of its last digit. -/
def shortest (x : Binary64) : Nat × Int :=
  if x.mantissa = 0 then (0, 0)
  else
    let i := x.interval
    let start := ((binaryOrder i.mid i.den) * 30103) / 100000 - 2
    let p := decimalOrder i.mid i.den 5 start
    let (c, k) := i.search 17 p
    stripZeros 20 c k

/-- The text of a number: its shortest digits, with a point and at least one digit
behind it when the point stands at most sixteen places behind the first digit or
at most four zeros before it, else with one digit before the point and an
exponent. -/
def text (x : Binary64) : List Char :=
  let (c, k) := x.shortest
  let ds := digits c
  let point : Int := ds.length + k
  let body :=
    if x.mantissa = 0 then ['0', '.', '0']
    else if 0 ≤ k ∧ point ≤ 16 then ds ++ List.replicate k.toNat '0' ++ ['.', '0']
    else if 0 < point ∧ point ≤ 16 then
      ds.take point.toNat ++ '.' :: ds.drop point.toNat
    else if -5 < point ∧ point ≤ 0 then
      '0' :: '.' :: List.replicate (-point).toNat '0' ++ ds
    else
      let e := point - 1
      let tail := if e < 0 then '-' :: digits e.natAbs else digits e.natAbs
      match ds with
      | [] => []
      | [d] => d :: 'e' :: tail
      | d :: rest => d :: '.' :: rest ++ 'e' :: tail
  if x.negative then '-' :: body else body

end Binary64

end ConfigBinder.Decimal
