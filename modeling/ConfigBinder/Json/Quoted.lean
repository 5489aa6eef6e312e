/-
Quoted text in JSON.

Written, a quote and a backslash have a backslash in front, the control characters
their short escape or four hexadecimal digits, and all else stands for itself.
Read, a code in hexadecimal digits may be half of a surrogate pair; a text with a
half that has no partner is well formed but stands for no characters.
-/
import ConfigBinder.Text.Digit

namespace ConfigBinder.Json.Quoted

open Text

/-- How one character is written. -/
def escape (c : Char) : List Char :=
  if c = '"' then ['\\', '"']
  else if c = '\\' then ['\\', '\\']
  else if c = '\x08' then ['\\', 'b']
  else if c = '\t' then ['\\', 't']
  else if c = '\n' then ['\\', 'n']
  else if c = '\x0c' then ['\\', 'f']
  else if c = '\r' then ['\\', 'r']
  else if c.toNat < 0x20 then
    ['\\', 'u', '0', '0', hexDigit (c.toNat / 16), hexDigit (c.toNat % 16)]
  else [c]

/-- A text between quotes. -/
def write (cs : List Char) : List Char := '"' :: cs.flatMap escape ++ ['"']

/-- What a quoted text is made of: characters, and codes of sixteen bits. -/
inductive Piece where
  | char (c : Char)
  | code (n : Nat)
  deriving DecidableEq, Repr

/-- The character of a short escape. -/
def short? (c : Char) : Option Char :=
  if c = '"' then some '"'
  else if c = '\\' then some '\\'
  else if c = '/' then some '/'
  else if c = 'b' then some '\x08'
  else if c = 'f' then some '\x0c'
  else if c = 'n' then some '\n'
  else if c = 'r' then some '\r'
  else if c = 't' then some '\t'
  else none

/-- The pieces up to the closing quote, and what follows it. -/
def pieces : List Char → Option (List Piece × List Char)
  | [] => none
  | '"' :: rest => some ([], rest)
  | '\\' :: 'u' :: a :: b :: c :: d :: rest => do
    let n ← number? 16 [a, b, c, d]
    let (ps, rest) ← pieces rest
    some (.code n :: ps, rest)
  | '\\' :: e :: rest => do
    let c ← short? e
    let (ps, rest) ← pieces rest
    some (.char c :: ps, rest)
  | c :: rest =>
    if c.toNat < 0x20 ∨ c = '\\' then none
    else do
      let (ps, rest) ← pieces rest
      some (.char c :: ps, rest)

/-- Whether a code is the first half of a surrogate pair. -/
def isLead (n : Nat) : Bool := 0xD800 ≤ n && n < 0xDC00

/-- Whether a code is the second half of a surrogate pair. -/
def isTrail (n : Nat) : Bool := 0xDC00 ≤ n && n < 0xE000

/-- The characters of the pieces; none when half of a pair has no partner. -/
def join : List Piece → Option (List Char)
  | [] => some []
  | .char c :: rest => (join rest).map (c :: ·)
  | .code n :: rest =>
    if isTrail n then none
    else if isLead n then
      match rest with
      | .code m :: rest =>
        if isTrail m then
          (join rest).map (Char.ofNat (0x10000 + (n - 0xD800) * 0x400 + (m - 0xDC00)) :: ·)
        else none
      | _ => none
    else (join rest).map (Char.ofNat n :: ·)

/-- Reads on from behind an opening quote: the text, none for one with an unpaired
surrogate, and what follows the closing quote. -/
def read (cs : List Char) : Option (Option String × List Char) :=
  (pieces cs).map fun (ps, rest) => ((join ps).map String.ofList, rest)

end ConfigBinder.Json.Quoted
