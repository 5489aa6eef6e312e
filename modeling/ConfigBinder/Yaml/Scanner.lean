/-
Tokens from YAML text.

Text is taken from left to right.  Indentation opens and closes block collections.
What may turn out to be a key is remembered, one such place for each level of flow
collections, until a colon behind it makes it a key or it can no longer be one: a key
stands on one line and takes at most 1024 bytes there.  Where a block mapping must have
a key, a lost one is a fault.
-/
import ConfigBinder.Yaml.Scalar

namespace ConfigBinder.Yaml

/-- A place in a text. -/
structure Place where
  line : Nat
  column : Nat
  /-- The bytes in front. -/
  offset : Nat
  deriving DecidableEq, Repr

/-- The place behind a character. -/
def Place.step (p : Place) (c : Char) : Place :=
  if isBreak c then ⟨p.line + 1, 0, p.offset + c.utf8Size⟩
  else ⟨p.line, p.column + 1, p.offset + c.utf8Size⟩

/-- What may turn out to be a key. -/
structure PendingKey where
  place : Place
  /-- How many tokens stand in front of it. -/
  position : Nat
  /-- Whether the collection around it must have a key here. -/
  required : Bool
  deriving DecidableEq, Repr

/-- What has been scanned. -/
structure Scanner where
  /-- The text that is left. -/
  rest : List Char
  /-- The length of the whole text. -/
  length : Nat
  place : Place
  /-- The tokens so far, the last one first. -/
  tokens : List Token
  /-- The number of the tokens so far. -/
  count : Nat
  /-- What may turn out to be a key inside the innermost flow collection, or outside
  all of them. -/
  pending : Option PendingKey
  /-- The same for the levels around, from the inside: as many as flow collections are
  open. -/
  outer : List (Option PendingKey)
  /-- The columns of the open block collections, from the inside. -/
  indents : List Nat
  /-- Whether a key may begin here. -/
  keyAllowed : Bool

namespace Scanner

/-- Nothing has been scanned. -/
def start (cs : List Char) : Scanner :=
  { rest := cs
    length := cs.length
    place := ⟨0, 0, 0⟩
    tokens := []
    count := 0
    pending := none
    outer := []
    indents := []
    keyAllowed := true }

/-- Whether a flow collection is open. -/
def inFlow (s : Scanner) : Bool := !s.outer.isEmpty

/-- Adds a token at the end. -/
def push (s : Scanner) (t : Token) : Scanner :=
  { s with tokens := t :: s.tokens, count := s.count + 1 }

/-- Adds a token in front of all but so many. -/
def pushAt (s : Scanner) (position : Nat) (t : Token) : Scanner :=
  let behind := s.count - position
  { s with tokens := s.tokens.take behind ++ t :: s.tokens.drop behind, count := s.count + 1 }

/-- Passes a number of characters. -/
def skip (s : Scanner) (count : Nat) : Scanner :=
  { s with
    rest := s.rest.drop count
    place := (s.rest.take count).foldl Place.step s.place }

/-- Passes the characters in front that are of some kind. -/
def skipWhile (s : Scanner) (p : Char → Bool) : Scanner := s.skip (s.rest.takeWhile p).length

/-- Whether a key may follow from here on. -/
def allowKey (s : Scanner) (allowed : Bool) : Scanner := { s with keyAllowed := allowed }

/-! ### Keys -/

/-- Gives up the pending key of the innermost level, unless it must be one. -/
def dropKey? (s : Scanner) : Option Scanner :=
  if s.pending.any (·.required) then none else some { s with pending := none }

/-- Remembers that a key may begin here. -/
def markKey? (s : Scanner) : Option Scanner :=
  if s.keyAllowed then do
    let s ← s.dropKey?
    some
      { s with
        pending := some
          ⟨s.place, s.count, !s.inFlow && s.indents.head? = some s.place.column⟩ }
  else some s

/-- Whether a pending key can no longer be one. -/
def isStale (s : Scanner) (k : PendingKey) : Bool :=
  k.place.line < s.place.line || k.place.offset + 1024 < s.place.offset

/-- Gives up the pending key of the innermost level if it is stale.  The levels around
wait until they are the innermost: what is stale stays so. -/
def dropStale? (s : Scanner) : Option Scanner :=
  if s.pending.any s.isStale then s.dropKey? else some s

/-! ### Indentation -/

/-- Closes the block collections that are indented deeper than a column; without a
column all of them. -/
def closeBlocks (column : Option Nat) (s : Scanner) : Scanner :=
  if s.inFlow then s
  else
    let closed := s.indents.takeWhile fun i => column.all (· < i)
    { s with
      tokens := List.replicate closed.length Token.blockEnd ++ s.tokens
      count := s.count + closed.length
      indents := s.indents.drop closed.length }

/-- Opens a block collection at a column that is indented deeper than the open ones;
its token goes to a position. -/
def openBlock (s : Scanner) (column position : Nat) (t : Token) : Scanner :=
  if s.inFlow || s.indents.head?.any (column ≤ ·) then s
  else { s with indents := column :: s.indents }.pushAt position t

/-- Opens a block collection here, where a key must be allowed. -/
def openBlockHere? (s : Scanner) (t : Token) : Option Scanner :=
  if s.inFlow then some s
  else if s.keyAllowed then some (s.openBlock s.place.column s.count t)
  else none

/-! ### Between tokens -/

/-- Whether a character separates tokens here: a tab does so only where no key may
begin. -/
def isSeparator (s : Scanner) (c : Char) : Bool :=
  c = ' ' || (c = '\t' && (s.inFlow || !s.keyAllowed))

/-- Passes a mark of the byte order, which may stand at the start of any line. -/
def skipByteOrderMark (s : Scanner) : Scanner :=
  if s.place.column = 0 ∧ s.rest.head? = some '\ufeff' then s.skip 1 else s

/-- Goes on to the next token, past marks of the byte order, separators, comments and
line breaks; the fuel bounds the number of lines. -/
def toNextToken : Nat → Scanner → Scanner
  | 0, s => s
  | fuel + 1, s =>
    let s := s.skipByteOrderMark
    let s := s.skipWhile s.isSeparator
    let s := if s.rest.head? = some '#' then s.skipWhile fun c => !isBreak c else s
    if s.rest.head?.any isBreak then
      toNextToken fuel ((s.skip 1).allowKey (s.keyAllowed || !s.inFlow))
    else s

/-! ### Tokens -/

/-- The end of the text closes all blocks. -/
def finish? (s : Scanner) : Option Scanner := (s.closeBlocks none).dropKey?

/-- A directive. -/
def directive? (s : Scanner) : Option Scanner := do
  let s ← (s.closeBlocks none).dropKey?
  let line := s.rest.takeWhile fun c => !isBreak c
  let t ← Yaml.directive? (line.drop 1)
  some (((s.skip (line.length + 1)).push t).allowKey false)

/-- The start or the end of a document. -/
def documentIndicator? (s : Scanner) (t : Token) : Option Scanner := do
  let s ← (s.closeBlocks none).dropKey?
  some (((s.skip 3).push t).allowKey false)

/-- The start of a flow collection, which may be a key. -/
def openFlow? (s : Scanner) (t : Token) : Option Scanner := do
  let s ← s.markKey?
  let s := { s with outer := s.pending :: s.outer, pending := none }
  some (((s.skip 1).push t).allowKey true)

/-- The end of a flow collection. -/
def closeFlow? (s : Scanner) (t : Token) : Option Scanner := do
  let s ← s.dropKey?
  let s :=
    match s.outer with
    | [] => s
    | k :: outer => { s with outer := outer, pending := k }
  some (((s.skip 1).push t).allowKey false)

/-- A comma in a flow collection. -/
def flowEntry? (s : Scanner) : Option Scanner := do
  let s ← s.dropKey?
  some (((s.skip 1).push .flowEntry).allowKey true)

/-- The dash before an item. -/
def blockEntry? (s : Scanner) : Option Scanner := do
  let s ← s.openBlockHere? .blockSequenceStart
  let s ← s.dropKey?
  some (((s.skip 1).push .blockEntry).allowKey true)

/-- The question mark before a key. -/
def key? (s : Scanner) : Option Scanner := do
  let s ← s.openBlockHere? .blockMappingStart
  let s ← s.dropKey?
  some (((s.skip 1).push .key).allowKey !s.inFlow)

/-- The colon before a value: it makes a key of what is pending. -/
def value? (s : Scanner) : Option Scanner :=
  match s.pending with
  | some k =>
    let s := (s.pushAt k.position .key).openBlock k.place.column k.position .blockMappingStart
    some ((({ s with pending := none }.skip 1).push .value).allowKey false)
  | none => do
    let s ← s.openBlockHere? .blockMappingStart
    some (((s.skip 1).push .value).allowKey !s.inFlow)

/-- The characters up to the next separator. -/
def word (s : Scanner) : List Char := s.rest.takeWhile fun c => !isGap c

/-- An anchor or an alias. -/
def anchor? (s : Scanner) (token : String → Token) : Option Scanner := do
  let s ← s.markKey?
  let (name, rest) ← anchorName? (s.word.drop 1)
  some (((s.skip (s.word.length - rest.length)).push (token name)).allowKey false)

/-- A tag. -/
def tag? (s : Scanner) : Option Scanner := do
  let s ← s.markKey?
  let (t, rest) ← Yaml.tag? (s.word.drop 1)
  if endsTag s.inFlow rest then
    some (((s.skip (s.word.length - rest.length)).push t).allowKey false)
  else none

/-- A block scalar. -/
def blockScalar? (s : Scanner) (style : ScalarStyle) : Option Scanner := do
  let s ← s.dropKey?
  let (text, passed) ←
    Block.read? (s.length + 1) (style = .folded) s.indents.head? (s.rest.drop 1)
  some (((s.skip (passed + 1)).push (.scalar style (String.ofList text))).allowKey true)

/-- A quoted scalar. -/
def quotedScalar? (s : Scanner) (style : ScalarStyle) : Option Scanner := do
  let s ← s.markKey?
  let (text, passed) ← Quoted.read? (style = .doubleQuoted) (s.rest.drop 1)
  some (((s.skip (passed + 1)).push (.scalar style (String.ofList text))).allowKey false)

/-- A plain scalar; behind a line break a key may follow it. -/
def plainScalar? (s : Scanner) : Option Scanner := do
  let s ← s.markKey?
  let indent := s.indents.head?.elim 0 (· + 1)
  let scalar ← Plain.read? (s.length + 1) s.inFlow indent s.rest
  some
    (((s.skip scalar.passed).push (.scalar .plain (String.ofList scalar.text))).allowKey
      scalar.brokenOff)

/-- The characters that mean something at the start of a token. -/
def indicators : List Char :=
  ['-', '?', ':', ',', '[', ']', '{', '}', '#', '&', '*', '!', '|', '>', '\'', '"', '%', '@',
    '\x60']

/-- Whether a plain scalar may begin with a character, given what follows it. -/
def startsPlain (inFlow : Bool) (c : Char) (rest : List Char) : Bool :=
  !(isGap c || indicators.contains c) || (c = '-' && !rest.head?.any isBlank) ||
    (!inFlow && (c = '?' || c = ':') && !endsWord rest)

/-- The token that begins with a character, given what follows it. -/
def token? (s : Scanner) (c : Char) (rest : List Char) : Option Scanner :=
  let ends := endsWord rest
  if s.place.column = 0 ∧ c = '%' then s.directive?
  else if s.place.column = 0 ∧ startsDocumentIndicator s.rest then
    s.documentIndicator? (if c = '-' then .documentStart else .documentEnd)
  else if c = '[' then s.openFlow? .flowSequenceStart
  else if c = '{' then s.openFlow? .flowMappingStart
  else if c = ']' then s.closeFlow? .flowSequenceEnd
  else if c = '}' then s.closeFlow? .flowMappingEnd
  else if c = ',' then s.flowEntry?
  else if c = '-' ∧ ends then s.blockEntry?
  else if c = '?' ∧ (s.inFlow || ends) then s.key?
  else if c = ':' ∧ (s.inFlow || ends) then s.value?
  else if c = '*' then s.anchor? .alias
  else if c = '&' then s.anchor? .anchor
  else if c = '!' then s.tag?
  else if c = '|' ∧ !s.inFlow then s.blockScalar? .literal
  else if c = '>' ∧ !s.inFlow then s.blockScalar? .folded
  else if c = '\'' then s.quotedScalar? .singleQuoted
  else if c = '"' then s.quotedScalar? .doubleQuoted
  else if startsPlain s.inFlow c rest then s.plainScalar?
  else none

/-- Scans what is left; the fuel bounds the number of tokens that begin in it. -/
def run? : Nat → Scanner → Option Scanner
  | 0, _ => none
  | fuel + 1, s => do
    let s := toNextToken (s.length + 1) s
    let s ← s.dropStale?
    let s := s.closeBlocks (some s.place.column)
    match s.rest with
    | [] => s.finish?
    | c :: rest =>
      let s ← s.token? c rest
      run? fuel s

end Scanner

/-- The tokens of a text, none when it is malformed. -/
def tokens? (text : String) : Option (List Token) :=
  let cs := unifyBreaks text.toList
  if text.toList.all isAllowed then
    (Scanner.run? (cs.length + 1) (Scanner.start cs)).map (·.tokens.reverse)
  else none

end ConfigBinder.Yaml
