/-
Digits to a base of up to sixteen.

The letters from `a` to `f`, in either case, are the digits behind nine; they are written small.
-/

namespace ConfigBinder.Text

/-- The digit for a number below sixteen. -/
def hexDigit (n : Nat) : Char := if n < 10 then Char.ofNat (48 + n) else Char.ofNat (87 + n)

/-- The number that a digit to base sixteen stands for. -/
def hexValue? (c : Char) : Option Nat :=
  if '0' ≤ c ∧ c ≤ '9' then some (c.toNat - 48)
  else if 'a' ≤ c ∧ c ≤ 'f' then some (c.toNat - 87)
  else if 'A' ≤ c ∧ c ≤ 'F' then some (c.toNat - 55)
  else none

/-- The number that a digit to a base stands for. -/
def digit? (base : Nat) (c : Char) : Option Nat := (hexValue? c).filter (· < base)

/-- The number that a row of digits to a base stands for. -/
def number? (base : Nat) (ds : List Char) : Option Nat :=
  ds.foldlM (fun acc c => (digit? base c).map (base * acc + ·)) 0

end ConfigBinder.Text
