/-
Names in YAML text: of anchors, tags and directives.

Each function reads from where its indicator has been found, and gives what follows.
-/
import ConfigBinder.Decimal.Digits
import ConfigBinder.Text.Digit
import ConfigBinder.Yaml.Character
import ConfigBinder.Yaml.Token

namespace ConfigBinder.Yaml

/-- What may follow the name of an anchor. -/
def endsAnchor : List Char → Bool
  | [] => true
  | c :: _ => isGap c || ['?', ':', ',', ']', '}', '%', '@', '\x60'].contains c

/-- The name of an anchor or an alias. -/
def anchorName? (cs : List Char) : Option (String × List Char) :=
  let name := cs.takeWhile isNameChar
  let rest := cs.dropWhile isNameChar
  if name ≠ [] ∧ endsAnchor rest then some (String.ofList name, rest) else none

/-! ### Tags -/

/-- Whether a character may stand in a tag without an escape; in angle brackets and in
directives more may. -/
def isUriChar (bracketed : Bool) (c : Char) : Bool :=
  isNameChar c || ";/?:@&=+$.!~*'()".toList.contains c ||
    (bracketed && [',', '[', ']'].contains c)

/-- The byte that an escape of two hexadecimal digits stands for. -/
def uriByte? : List Char → Option (Nat × List Char)
  | '%' :: a :: b :: rest => (Text.number? 16 [a, b]).map (·, rest)
  | _ => none

/-- The further bytes of an escaped character, added to its leading bits. -/
def uriTail? : Nat → Nat → List Char → Option (Nat × List Char)
  | 0, acc, cs => some (acc, cs)
  | count + 1, acc, cs => do
    let (b, rest) ← uriByte? cs
    if b / 64 = 2 then uriTail? count (64 * acc + b % 64) rest else none

/-- The character with a code, if no row of fewer bytes could hold the code: `least` is
the first that none could. -/
def charFrom? (least code : Nat) : Option Char :=
  if least ≤ code ∧ code.isValidChar then some (Char.ofNat code) else none

/-- A row of escaped bytes that has the form of one character. -/
def uriEscape? (cs : List Char) : Option (Option Char × List Char) := do
  let (b, rest) ← uriByte? cs
  let (least, code, rest) ←
    if b < 0x80 then some (0, b, rest)
    else if b / 32 = 6 then (uriTail? 1 (b % 32) rest).map (0x80, ·)
    else if b / 16 = 14 then (uriTail? 2 (b % 16) rest).map (0x800, ·)
    else if b / 8 = 30 then (uriTail? 3 (b % 8) rest).map (0x10000, ·)
    else none
  some (charFrom? least code, rest)

/-- The characters of a tag as far as they go; the fuel bounds their number. -/
def uri? (bracketed : Bool) : Nat → List Char → Option (Tag × List Char)
  | 0, cs => some ([], cs)
  | fuel + 1, cs =>
    match cs with
    | '%' :: _ => do
      let (c, rest) ← uriEscape? cs
      let (more, rest) ← uri? bracketed fuel rest
      some (c :: more, rest)
    | c :: rest =>
      if isUriChar bracketed c then do
        let (more, rest) ← uri? bracketed fuel rest
        some (some c :: more, rest)
      else some ([], cs)
    | [] => some ([], [])

/-- The part of a tag that is written here, which must not be empty. -/
def someUri? (bracketed : Bool) (cs : List Char) : Option (Tag × List Char) := do
  let (part, rest) ← uri? bracketed cs.length cs
  if part = [] then none else some (part.upToNull, rest)

/-- A tag, from behind its exclamation mark; the mark alone is a tag without a handle. -/
def tag? : List Char → Option (Token × List Char)
  | '<' :: cs => do
    let (suffix, rest) ← someUri? true cs
    match rest with
    | '>' :: rest => some (.tag none suffix, rest)
    | _ => none
  | cs =>
    let name := cs.takeWhile isNameChar
    match cs.dropWhile isNameChar with
    | '!' :: rest => do
      let (suffix, rest) ← someUri? false rest
      some (.tag (some (String.ofList ('!' :: name ++ ['!']))) suffix, rest)
    | rest => do
      let (more, rest) ← uri? false rest.length rest
      let suffix := Tag.upToNull (name.map some ++ more)
      if suffix = [] then some (.tag none (Tag.ofString "!"), rest)
      else some (.tag (some "!") suffix, rest)

/-- Whether a tag may end here: at a separator, or at a comma inside a flow
collection. -/
def endsTag (inFlow : Bool) : List Char → Bool
  | ',' :: _ => inFlow
  | cs => endsWord cs

/-! ### Directives -/

/-- What is left of a line behind the blanks. -/
def skipBlanks (cs : List Char) : List Char := cs.dropWhile isBlank

/-- A number in a version. -/
def versionNumber? (cs : List Char) : Option (Nat × List Char) :=
  let ds := cs.takeWhile Char.isDigit
  if ds = [] ∨ 9 < ds.length then none
  else some (Decimal.value ds, cs.dropWhile Char.isDigit)

/-- The version that a directive states. -/
def version? (cs : List Char) : Option (Token × List Char) := do
  let (major, rest) ← versionNumber? (skipBlanks cs)
  match rest with
  | '.' :: rest =>
    let (minor, rest) ← versionNumber? rest
    some (.version major minor, rest)
  | _ => none

/-- The handle that a directive declares: one exclamation mark, or a name between
two. -/
def handle? : List Char → Option (List Char × List Char)
  | '!' :: cs =>
    let name := cs.takeWhile isNameChar
    match cs.dropWhile isNameChar with
    | '!' :: rest => some ('!' :: name ++ ['!'], rest)
    | rest => if name = [] then some (['!'], rest) else none
  | _ => none

/-- The handle that a directive declares, with its expansion. -/
def tagHandle? (cs : List Char) : Option (Token × List Char) := do
  let (handle, rest) ← handle? (skipBlanks cs)
  match rest with
  | c :: _ =>
    if isBlank c then do
      let (expansion, rest) ← someUri? true (skipBlanks rest)
      if endsWord rest then
        some (.tagHandle (String.ofList handle) expansion, rest)
      else none
    else none
  | [] => none

/-- Whether nothing but a comment is left of a line. -/
def endsLine (line : List Char) : Bool :=
  match skipBlanks line with
  | [] => true
  | c :: _ => c = '#'

/-- A directive, from behind its percent sign to the end of its line. -/
def directive? (line : List Char) : Option Token := do
  let name := line.takeWhile isNameChar
  let rest := line.dropWhile isNameChar
  if name = [] ∨ !endsWord rest then none
  else
    let (token, rest) ←
      if name = "YAML".toList then version? rest
      else if name = "TAG".toList then tagHandle? rest
      else none
    if endsLine rest then some token else none

end ConfigBinder.Yaml
