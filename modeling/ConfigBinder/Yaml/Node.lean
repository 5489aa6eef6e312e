/-
Nodes of a YAML document.

A node is a scalar, a sequence, a mapping, or an alias of an anchored node.  Anchors
have numbers: a name gets the number of names anchored before, when it is used again
too, so a number can come to stand for another node, and the node that begins last
keeps it.
-/
import ConfigBinder.Yaml.Scanner

namespace ConfigBinder.Yaml

/-- What stands in front of a node's content. -/
structure Properties where
  anchor : Option Nat
  tag : Option Tag
  deriving DecidableEq, Repr

/-- A node. -/
inductive Node where
  | alias (anchor : Nat)
  | scalar (properties : Properties) (style : ScalarStyle) (text : String)
  | sequence (properties : Properties) (items : List Node)
  | mapping (properties : Properties) (entries : List (Node × Node))
  deriving Inhabited

namespace Node

mutual
/-- The anchored nodes inside a node, in the order in which they begin. -/
def anchored : Node → List (Nat × Node)
  | .alias _ => []
  | .scalar p style text => (p.anchor.map (·, .scalar p style text)).toList
  | .sequence p items => (p.anchor.map (·, .sequence p items)).toList ++ anchoredItems items
  | .mapping p entries =>
    (p.anchor.map (·, .mapping p entries)).toList ++ anchoredEntries entries
def anchoredItems : List Node → List (Nat × Node)
  | [] => []
  | n :: rest => n.anchored ++ anchoredItems rest
def anchoredEntries : List (Node × Node) → List (Nat × Node)
  | [] => []
  | (k, v) :: rest => k.anchored ++ v.anchored ++ anchoredEntries rest
end

mutual
/-- The number of marks that a node takes: one for a scalar or an alias, two for the
ends of a collection. -/
def size : Node → Nat
  | .alias _ => 1
  | .scalar _ _ _ => 1
  | .sequence _ items => sizeOfItems items + 2
  | .mapping _ entries => sizeOfEntries entries + 2
def sizeOfItems : List Node → Nat
  | [] => 0
  | n :: rest => n.size + sizeOfItems rest
def sizeOfEntries : List (Node × Node) → Nat
  | [] => 0
  | (k, v) :: rest => k.size + v.size + sizeOfEntries rest
end

/-- Nothing, where a node may be left out. -/
def blank : Node := .scalar ⟨none, none⟩ .plain ""

end Node

/-- What is left to parse. -/
structure Parser where
  tokens : List Token
  /-- The names anchored so far with their latest numbers. -/
  names : List (String × Nat)
  /-- The declared handles of tags with their expansions. -/
  handles : List (String × Tag)

namespace Parser

/-- Without the first token. -/
def tail (p : Parser) : Parser := { p with tokens := p.tokens.tail }

/-- Whether the next token is one of some. -/
def atOneOf (p : Parser) (ts : List Token) : Bool := p.tokens.head?.any ts.contains

/-- Gives a name a number. -/
def anchorName (p : Parser) (name : String) : Nat × Parser :=
  let id := p.names.length
  (id, { p with names := (name, id) :: p.names.filter (·.1 ≠ name) })

/-- The whole text of a tag. -/
def expandTag? (p : Parser) : Option String → Tag → Option Tag
  | none, suffix => some suffix
  | some handle, suffix => (p.handles.lookup handle).map (· ++ suffix)

/-- A node's anchor and tag, in either order, each at most once. -/
def properties? (p : Parser) : Option (Properties × Parser) :=
  match p.tokens with
  | .anchor name :: .tag handle suffix :: rest | .tag handle suffix :: .anchor name :: rest => do
    let (id, p) := p.anchorName name
    let tag ← p.expandTag? handle suffix
    some (⟨some id, some tag⟩, { p with tokens := rest })
  | .anchor name :: rest =>
    let (id, p) := p.anchorName name
    some (⟨some id, none⟩, { p with tokens := rest })
  | .tag handle suffix :: rest => do
    let tag ← p.expandTag? handle suffix
    some (⟨none, some tag⟩, { p with tokens := rest })
  | _ => some (⟨none, none⟩, p)

/-- Where a node stands: what it may be depends on it. -/
inductive Context where
  /-- An item, or a document. -/
  | block
  /-- A key or a value, which may be a sequence that is not indented. -/
  | entry
  /-- Inside a flow collection. -/
  | flow
  deriving DecidableEq, Repr

mutual
/-- Parses a node; the fuel bounds the steps. -/
def node? (fuel : Nat) (context : Context) (p : Parser) : Option (Node × Parser) :=
  match fuel with
  | 0 => none
  | fuel + 1 =>
    match p.tokens with
    | .alias name :: _ => (p.names.lookup name).map fun id => (.alias id, p.tail)
    | _ =>
      match p.properties? with
      | none => none
      | some (props, p) => content? fuel context props p
/-- Parses the content of a node. -/
def content? (fuel : Nat) (context : Context) (props : Properties) (p : Parser) :
    Option (Node × Parser) :=
  match fuel with
  | 0 => none
  | fuel + 1 =>
    match p.tokens, context with
    | .blockEntry :: _, .entry =>
      (looseItems? fuel p).map fun (items, p) => (.sequence props items, p)
    | .scalar style text :: _, _ =>
      some (.scalar props style text, p.tail)
    | .flowSequenceStart :: _, _ =>
      (flowItems? fuel true p.tail).map fun (items, p) => (.sequence props items, p)
    | .flowMappingStart :: _, _ =>
      (flowEntries? fuel true p.tail).map fun (entries, p) => (.mapping props entries, p)
    | .blockSequenceStart :: _, .block | .blockSequenceStart :: _, .entry =>
      (blockItems? fuel p.tail).map fun (items, p) => (.sequence props items, p)
    | .blockMappingStart :: _, .block | .blockMappingStart :: _, .entry =>
      (blockEntries? fuel p.tail).map fun (entries, p) => (.mapping props entries, p)
    | _, _ =>
      if props = ⟨none, none⟩ then none else some (.scalar props .plain "", p)
/-- Parses a node, unless one of some tokens shows that it is left out. -/
def nodeUnless? (fuel : Nat) (ends : List Token) (context : Context) (p : Parser) :
    Option (Node × Parser) :=
  match fuel with
  | 0 => none
  | fuel + 1 => if p.atOneOf ends then some (.blank, p) else node? fuel context p
/-- Parses the items of an indented sequence. -/
def blockItems? (fuel : Nat) (p : Parser) : Option (List Node × Parser) :=
  match fuel with
  | 0 => none
  | fuel + 1 =>
    match p.tokens with
    | .blockEntry :: _ => do
      let (item, p) ← nodeUnless? fuel [.blockEntry, .blockEnd] .block p.tail
      let (items, p) ← blockItems? fuel p
      some (item :: items, p)
    | .blockEnd :: _ => some ([], p.tail)
    | _ => none
/-- Parses the items of a sequence that is not indented. -/
def looseItems? (fuel : Nat) (p : Parser) : Option (List Node × Parser) :=
  match fuel with
  | 0 => none
  | fuel + 1 =>
    match p.tokens with
    | .blockEntry :: _ => do
      let (item, p) ← nodeUnless? fuel [.blockEntry, .key, .value, .blockEnd] .block p.tail
      let (items, p) ← looseItems? fuel p
      some (item :: items, p)
    | _ => some ([], p)
/-- Parses the entries of a block mapping. -/
def blockEntries? (fuel : Nat) (p : Parser) : Option (List (Node × Node) × Parser) :=
  match fuel with
  | 0 => none
  | fuel + 1 =>
    match p.tokens with
    | .key :: _ => do
      let (key, p) ← nodeUnless? fuel [.key, .value, .blockEnd] .entry p.tail
      let (value, p) ← valueAfter? fuel [.key, .value, .blockEnd] .entry p
      let (entries, p) ← blockEntries? fuel p
      some ((key, value) :: entries, p)
    | .blockEnd :: _ => some ([], p.tail)
    | _ => none
/-- Parses the value behind a key, which may be left out with or without its colon. -/
def valueAfter? (fuel : Nat) (ends : List Token) (context : Context) (p : Parser) :
    Option (Node × Parser) :=
  match fuel with
  | 0 => none
  | fuel + 1 =>
    match p.tokens with
    | .value :: _ => nodeUnless? fuel ends context p.tail
    | _ => some (.blank, p)
/-- Parses the items of a flow sequence; before all but the first stands a comma. -/
def flowItems? (fuel : Nat) (first : Bool) (p : Parser) : Option (List Node × Parser) :=
  match fuel with
  | 0 => none
  | fuel + 1 =>
    match p.tokens, first with
    | .flowSequenceEnd :: _, _ => some ([], p.tail)
    | .flowEntry :: .flowSequenceEnd :: _, false => some ([], p.tail.tail)
    | .flowEntry :: _, false => flowItem? fuel p.tail
    | _, true => flowItem? fuel p
    | _, false => none
/-- Parses an item of a flow sequence, and the items behind it; an item may be a single
pair. -/
def flowItem? (fuel : Nat) (p : Parser) : Option (List Node × Parser) :=
  match fuel with
  | 0 => none
  | fuel + 1 => do
    let (item, p) ←
      match p.tokens with
      | .key :: _ => flowPair? fuel p.tail
      | _ => node? fuel .flow p
    let (items, p) ← flowItems? fuel false p
    some (item :: items, p)
/-- Parses a single pair in a flow sequence.  Where its key is left out, the token
behind the place of the key goes with it. -/
def flowPair? (fuel : Nat) (p : Parser) : Option (Node × Parser) :=
  match fuel with
  | 0 => none
  | fuel + 1 => do
    let (key, p) ←
      if p.atOneOf [.value, .flowEntry, .flowSequenceEnd] then some (Node.blank, p.tail)
      else node? fuel .flow p
    let (value, p) ← valueAfter? fuel [.flowEntry, .flowSequenceEnd] .flow p
    some (.mapping ⟨none, none⟩ [(key, value)], p)
/-- Parses the entries of a flow mapping; before all but the first stands a comma. -/
def flowEntries? (fuel : Nat) (first : Bool) (p : Parser) :
    Option (List (Node × Node) × Parser) :=
  match fuel with
  | 0 => none
  | fuel + 1 =>
    match p.tokens, first with
    | .flowMappingEnd :: _, _ => some ([], p.tail)
    | .flowEntry :: .flowMappingEnd :: _, false => some ([], p.tail.tail)
    | .flowEntry :: _, false => flowEntry? fuel p.tail
    | _, true => flowEntry? fuel p
    | _, false => none
/-- Parses an entry of a flow mapping, and the entries behind it; without an indicator
it is a key without a value. -/
def flowEntry? (fuel : Nat) (p : Parser) : Option (List (Node × Node) × Parser) :=
  match fuel with
  | 0 => none
  | fuel + 1 => do
    let (entry, p) ←
      match p.tokens with
      | .key :: _ => do
        let (key, p) ← nodeUnless? fuel [.value, .flowEntry, .flowMappingEnd] .flow p.tail
        let (value, p) ← valueAfter? fuel [.flowEntry, .flowMappingEnd] .flow p
        some ((key, value), p)
      | _ => (node? fuel .flow p).map fun (key, p) => ((key, Node.blank), p)
    let (entries, p) ← flowEntries? fuel false p
    some (entry :: entries, p)
end

/-- The handles that always exist, unless a directive gives them another meaning. -/
def defaultHandles : List (String × Tag) := [("!", .ofString "!"), ("!!", .core "")]

/-- Reads the directives in front of a document: at most one version, which must be
1.1 or 1.2, and no handle twice. -/
def directives? : List Token → Bool → List (String × Tag) →
    Option (List (String × Tag) × List Token)
  | .version major minor :: rest, seen, handles =>
    if seen || major ≠ 1 || (minor ≠ 1 && minor ≠ 2) then none
    else directives? rest true handles
  | .tagHandle handle expansion :: rest, seen, handles =>
    if (handles.lookup handle).isSome then none
    else directives? rest seen ((handle, expansion) :: handles)
  | ts, _, handles => some (handles, ts)

/-- Whether tokens start with a directive or the start of a document. -/
def startsExplicitly : List Token → Bool
  | .version _ _ :: _ => true
  | .tagHandle _ _ :: _ => true
  | .documentStart :: _ => true
  | _ => false

/-- Whether the content of a document is left out. -/
def lacksContent : List Token → Bool
  | [] => true
  | .documentEnd :: _ => true
  | ts => startsExplicitly ts

end Parser

/-- The only document of a row of tokens: `some none` when there is nothing at all, and
none when the tokens are no document or more than one. -/
def document? (ts : List Token) : Option (Option Node) :=
  let close := fun (n : Node) (rest : List Token) =>
    if rest.all (· = .documentEnd) then some (some n) else none
  let fuel := 4 * ts.length + 4
  match ts with
  | [] => some none
  | _ =>
    if Parser.startsExplicitly ts then do
      let (handles, rest) ← Parser.directives? ts false []
      match rest with
      | .documentStart :: rest =>
        if Parser.lacksContent rest then close .blank rest
        else
          let (n, p) ← Parser.node? fuel .block ⟨rest, [], handles ++ Parser.defaultHandles⟩
          close n p.tokens
      | _ => none
    else do
      let (n, p) ← Parser.node? fuel .block ⟨ts, [], Parser.defaultHandles⟩
      close n p.tokens

end ConfigBinder.Yaml
