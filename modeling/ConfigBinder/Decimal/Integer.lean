/-
Signed integers of a fixed width, read from decimal text.

One sign may stand in front and at least one digit must follow.  The digits are
taken from left to right, so the first fault in reading order is the one that is
reported: a character that is no digit, or the digit that leaves the range.
-/
import ConfigBinder.Decimal.Digits

namespace ConfigBinder.Decimal

/-- Why a text is no integer of the wanted width. -/
inductive IntegerFault where
  | emptyText
  | invalidDigit
  | tooLarge
  | tooSmall
  deriving DecidableEq, Repr

/-- The wording of the fault. -/
def IntegerFault.message : IntegerFault → String
  | .emptyText => "cannot parse integer from empty string"
  | .invalidDigit => "invalid digit found in string"
  | .tooLarge => "number too large to fit in target type"
  | .tooSmall => "number too small to fit in target type"

/-- Reads digits onto an accumulated magnitude that must stay within the limit;
`beyond` is the fault of leaving it. -/
def accumulate (limit : Nat) (beyond : IntegerFault) (acc : Nat) :
    List Char → Except IntegerFault Nat
  | [] => .ok acc
  | c :: rest =>
    if c.isDigit then
      let next := 10 * acc + digitValue c
      if next ≤ limit then accumulate limit beyond next rest else .error beyond
    else .error .invalidDigit

/-- The integer of `width` bits that a text denotes. -/
def readInteger (width : Nat) : List Char → Except IntegerFault Int
  | [] => .error .emptyText
  | ['+'] => .error .invalidDigit
  | ['-'] => .error .invalidDigit
  | '-' :: ds => (accumulate (Nat.pow 2 (width - 1)) .tooSmall 0 ds).map fun n => -(n : Int)
  | '+' :: ds => (accumulate (Nat.pow 2 (width - 1) - 1) .tooLarge 0 ds).map fun n => (n : Int)
  | ds => (accumulate (Nat.pow 2 (width - 1) - 1) .tooLarge 0 ds).map fun n => (n : Int)

end ConfigBinder.Decimal
