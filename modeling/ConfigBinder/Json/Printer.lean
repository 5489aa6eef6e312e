/-
Writing JSON text.

The compact form has no white space.  The indented form puts each item and each
member on a line of its own, two spaces deeper than what holds it; an empty array
or object is closed at once.
-/
import ConfigBinder.Decimal.Digits
import ConfigBinder.Json.Basic
import ConfigBinder.Json.Quoted

namespace ConfigBinder.Json

open Decimal

/-- The digits of an integer, with a minus sign when it is negative. -/
def intChars (n : Int) : List Char :=
  if n < 0 then '-' :: digits n.natAbs else digits n.natAbs

/-- The text of a value that holds no other. -/
def leafChars : Json → List Char
  | .null => "null".toList
  | .bool true => "true".toList
  | .bool false => "false".toList
  | .int n => intChars n
  | .real spelling => spelling.toList
  | .text s => Quoted.write s.toList
  | _ => []

mutual
/-- The compact form. -/
def compactChars : Json → List Char
  | .array items => '[' :: compactItems items ++ [']']
  | .object members => '{' :: compactMembers members ++ ['}']
  | leaf => leafChars leaf
def compactItems : List Json → List Char
  | [] => []
  | [v] => compactChars v
  | v :: w :: rest => compactChars v ++ ',' :: compactItems (w :: rest)
def compactMembers : List (String × Json) → List Char
  | [] => []
  | [(k, v)] => Quoted.write k.toList ++ ':' :: compactChars v
  | (k, v) :: m :: rest =>
    Quoted.write k.toList ++ ':' :: compactChars v ++ ',' :: compactMembers (m :: rest)
end

/-- A line break and the indentation of a level. -/
def lineStart (level : Nat) : List Char := '\n' :: List.replicate (2 * level) ' '

mutual
/-- The indented form of a value that stands at a level. -/
def prettyChars (level : Nat) : Json → List Char
  | .array [] => ['[', ']']
  | .array (v :: rest) =>
    '[' :: prettyItems (level + 1) (v :: rest) ++ lineStart level ++ [']']
  | .object [] => ['{', '}']
  | .object (m :: rest) =>
    '{' :: prettyMembers (level + 1) (m :: rest) ++ lineStart level ++ ['}']
  | leaf => leafChars leaf
def prettyItems (level : Nat) : List Json → List Char
  | [] => []
  | [v] => lineStart level ++ prettyChars level v
  | v :: w :: rest =>
    lineStart level ++ prettyChars level v ++ ',' :: prettyItems level (w :: rest)
def prettyMembers (level : Nat) : List (String × Json) → List Char
  | [] => []
  | [(k, v)] => lineStart level ++ Quoted.write k.toList ++ ':' :: ' ' :: prettyChars level v
  | (k, v) :: m :: rest =>
    lineStart level ++ Quoted.write k.toList ++ ':' :: ' ' :: prettyChars level v ++
      ',' :: prettyMembers level (m :: rest)
end

/-- The compact text of a value. -/
def compact (v : Json) : String := String.ofList (compactChars v)

/-- The indented text of a value. -/
def pretty (v : Json) : String := String.ofList (prettyChars 0 v)

end ConfigBinder.Json
