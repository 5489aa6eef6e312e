/-
Reading JSON text.

The text is one value with white space around it: no comment, no comma before a
closing bracket, nothing behind the value.  Arrays and objects may nest to any
depth; how deep a document may be read is for its reader to say.
-/
import ConfigBinder.Json.Number
import ConfigBinder.Json.Quoted

namespace ConfigBinder.Json

/-- The white space of the format. -/
def isSpace (c : Char) : Bool := c = ' ' || c = '\n' || c = '\t' || c = '\r'

/-- What follows the white space in front. -/
def skipSpace (cs : List Char) : List Char := cs.dropWhile isSpace

/-- A quoted text as a value. -/
def ofQuoted : Option String → Json
  | some s => .text s
  | none => .flawed

/-- An object of members, flawed when one of the names is. -/
def ofMembers (members : List (Option String × Json)) : Json :=
  match members.mapM fun (k, v) => k.map (·, v) with
  | some ms => .object ms
  | none => .flawed

/-- The name of a member with the colon behind it. -/
def memberName? (cs : List Char) : Option (Option String × List Char) :=
  match skipSpace cs with
  | '"' :: rest =>
    match Quoted.read rest with
    | some (name, rest) =>
      match skipSpace rest with
      | ':' :: rest => some (name, rest)
      | _ => none
    | none => none
  | _ => none

mutual
/-- Reads a value, and gives what follows it. -/
def readValue : Nat → List Char → Option (Json × List Char)
  | 0, _ => none
  | fuel + 1, cs =>
    match skipSpace cs with
    | '{' :: rest =>
      match skipSpace rest with
      | '}' :: rest => some (.object [], rest)
      | rest => (readMembers fuel rest).map fun (ms, rest) => (ofMembers ms, rest)
    | '[' :: rest =>
      match skipSpace rest with
      | ']' :: rest => some (.array [], rest)
      | rest => (readItems fuel rest).map fun (vs, rest) => (.array vs, rest)
    | '"' :: rest => (Quoted.read rest).map fun (s, rest) => (ofQuoted s, rest)
    | 'n' :: 'u' :: 'l' :: 'l' :: rest => some (.null, rest)
    | 't' :: 'r' :: 'u' :: 'e' :: rest => some (.bool true, rest)
    | 'f' :: 'a' :: 'l' :: 's' :: 'e' :: rest => some (.bool false, rest)
    | cs => Number.read cs
/-- Reads the items of an array up to its closing bracket. -/
def readItems : Nat → List Char → Option (List Json × List Char)
  | 0, _ => none
  | fuel + 1, cs =>
    match readValue fuel cs with
    | none => none
    | some (v, rest) =>
      match skipSpace rest with
      | ',' :: rest => (readItems fuel rest).map fun (vs, rest) => (v :: vs, rest)
      | ']' :: rest => some ([v], rest)
      | _ => none
/-- Reads the members of an object up to its closing bracket. -/
def readMembers : Nat → List Char → Option (List (Option String × Json) × List Char)
  | 0, _ => none
  | fuel + 1, cs =>
    match memberName? cs with
    | none => none
    | some (name, rest) =>
      match readValue fuel rest with
      | none => none
      | some (v, rest) =>
        match skipSpace rest with
        | ',' :: rest => (readMembers fuel rest).map fun (ms, rest) => ((name, v) :: ms, rest)
        | '}' :: rest => some ([(name, v)], rest)
        | _ => none
end

/-- The value that the characters spell. -/
def ofChars? (cs : List Char) : Option Json :=
  match readValue (2 * cs.length + 2) cs with
  | some (v, rest) => if skipSpace rest = [] then some v else none
  | none => none

/-- The value that a text spells. -/
def parse? (s : String) : Option Json := ofChars? s.toList

end ConfigBinder.Json
