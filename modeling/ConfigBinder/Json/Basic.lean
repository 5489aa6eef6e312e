/-
JSON values.

Members of an object keep their order and may repeat a name; what a repetition
means is for the reader of the object to say.  An integer is a number without
fraction and exponent that fits 64 bits, with or without sign; every other number
keeps its spelling.
-/

namespace ConfigBinder

/-- A JSON value. -/
inductive Json where
  | null
  | bool (value : Bool)
  | int (value : Int)
  | real (spelling : String)
  | text (value : String)
  | array (items : List Json)
  | object (members : List (String × Json))
  /-- Well-formed text that stands for no value: half of a surrogate pair, or a
  number beyond the range of floating point. -/
  | flawed
  deriving Inhabited

namespace Json

/-- A natural number as a value. -/
def nat (n : Nat) : Json := .int n

mutual
/-- The levels of arrays and objects inside a value, its own included. -/
def height : Json → Nat
  | .array items => heightOfItems items + 1
  | .object members => heightOfMembers members + 1
  | _ => 0
def heightOfItems : List Json → Nat
  | [] => 0
  | v :: rest => max v.height (heightOfItems rest)
def heightOfMembers : List (String × Json) → Nat
  | [] => 0
  | (_, v) :: rest => max v.height (heightOfMembers rest)
end

end Json

end ConfigBinder
