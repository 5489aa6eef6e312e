/-
YAML nodes as documents.

Where a text is asked for, every scalar is one, whatever it would mean elsewhere.  A
scalar without content counts as an empty list, map or record.  An alias stands for the
node that has its anchor; what is read of a document may follow only so many aliases as
keep it in proportion to the document.  Collections may nest to 128 levels.
-/
import ConfigBinder.Document.Basic
import ConfigBinder.Yaml.Meaning

namespace ConfigBinder.Yaml

/-- The levels of collections that a document may have. -/
def maxLevels : Nat := 128

/-- The number of aliases that may be followed for each mark of a document. -/
def aliasesPerMark : Nat := 100

/-- What aliases stand for. -/
structure Anchors where
  /-- The anchored nodes, the one that begins last first. -/
  nodes : List (Nat × Node)
  /-- How many aliases the document allows to be followed. -/
  budget : Nat

/-- A reading, with the number of aliases that may still be followed. -/
abbrev Following := StateT Nat Option

namespace Anchors

/-- The anchors of a document. -/
def ofNode (n : Node) : Anchors := ⟨n.anchored.reverse, aliasesPerMark * n.size⟩

/-- The node that an alias stands for, or the node itself. -/
def follow (a : Anchors) : Node → Following Node
  | .alias id => do
    match ← get with
    | 0 => failure
    | left + 1 =>
      set left
      a.nodes.lookup id
  | n => return n

end Anchors

/-- A meaning as a value read ahead. -/
def Meaning.toDatum : Meaning → Datum
  | .null => .null
  | .bool b => .bool b
  | .natural n => .natural n
  | .negative n => .negative n
  | .float _ => .real
  | .infinity _ => .real
  | .notANumber => .real
  | .text s => .text s

/-- The name of a node's tag, if it is one of the program's own. -/
def Properties.ownTag? (p : Properties) : Option String := p.tag.bind Tag.ownName?

/-- A value read ahead; nothing in it may have a tag of the program's own. -/
def datum (anchors : Anchors) : Nat → Node → Following Datum
  | levels, n => do
    match ← anchors.follow n, levels with
    | .scalar p style text, _ =>
      if p.ownTag?.isSome then failure
      else (Meaning.ofScalar? p.tag style text).map Meaning.toDatum
    | .sequence p items, levels + 1 =>
      if p.ownTag?.isSome then failure
      else return .list (← items.mapM (datum anchors levels))
    | .mapping p entries, levels + 1 =>
      if p.ownTag?.isSome then failure
      else
        return .map (← entries.mapM fun (k, v) => do
          return (← datum anchors levels k, ← datum anchors levels v))
    | _, _ => failure

/-- A node with what its aliases stand for and the levels that may still open; without
a node, the document holds nothing at all. -/
structure View where
  node : Option Node
  anchors : Anchors
  levels : Nat

namespace View

/-- What is read of a whole document. -/
def answer? {α : Type} (v : View) (read : View → Following α) : Option α :=
  (read v).run' v.anchors.budget

/-- The node behind an alias. -/
def target (v : View) : Following (Option Node) := v.node.mapM v.anchors.follow

/-- Another node of the same document, one level further in. -/
def inside (v : View) (levels : Nat) (n : Node) : View := ⟨some n, v.anchors, levels⟩

/-- Whether there is no content. -/
def isBlank : Option Node → Bool
  | none => true
  | some (.scalar _ .plain "") => true
  | _ => false

/-- The source text of a scalar. -/
def text? (v : View) : Following String := do
  match ← v.target with
  | some (.scalar _ _ s) => return s
  | _ => failure

/-- Whether a scalar is read for its meaning: a plain one is, and a literal one whose
tag asks for it. -/
def hasMeaning (tagName : String) (p : Properties) : ScalarStyle → Bool
  | .plain => true
  | .literal => p.tag = some (.core tagName)
  | _ => false

/-- True or false. -/
def flag? (v : View) : Following Bool := do
  match ← v.target with
  | some (.scalar p style s) => if hasMeaning "bool" p style then Meaning.truth? s else failure
  | _ => failure

/-- A natural number, which must have no minus sign. -/
def natural? (v : View) : Following Nat := do
  match ← v.target with
  | some (.scalar p style s) =>
    match hasMeaning "int" p style, Meaning.integer? s.toList with
    | true, some (false, n) => return n
    | _, _ => failure
  | _ => failure

/-- The value in a place that may be left empty. -/
def optional? (v : View) : Following (Option View) := do
  let n ← v.target
  let here : View := { v with node := n }
  match n with
  | none => return none
  | some (.scalar p .plain s) =>
    match p.tag with
    | none => return if s = "" ∨ Meaning.isNullWord s then none else some here
    | some t =>
      if t = .core "null" then
        if Meaning.isNullWord s then return none else failure
      else return some here
  | some _ => return some here

/-- The items of a sequence. -/
def items? (v : View) : Following (List View) := do
  let n ← v.target
  if isBlank n then return []
  else
    match n, v.levels with
    | some (.sequence _ items), levels + 1 => return items.map (v.inside levels)
    | _, _ => failure

/-- The entries of a mapping whose keys are scalars. -/
def entries? (v : View) : Following (List (String × View)) := do
  let n ← v.target
  if isBlank n then return []
  else
    match n, v.levels with
    | some (.mapping _ entries), levels + 1 =>
      entries.mapM fun (k, w) => return (← (v.inside levels k).text?, v.inside levels w)
    | _, _ => failure

/-- The choice of one of a row of names: a scalar, or a tag without content. -/
def choice? (v : View) : Following Selector := do
  match ← v.target with
  | some (.scalar p style s) =>
    match p.ownTag? with
    | none => return .name s
    | some name =>
      if style = .plain ∧ (s = "" ∨ Meaning.isNullWord s) then return .name name else failure
  | _ => failure

/-- An entry of a mapping that says its kind: the kind is read as a text, all else
ahead. -/
def kindedEntry (v : View) (levels : Nat) (e : Node × Node) : Following (Datum × Datum) := do
  let key ← datum v.anchors levels e.1
  match key with
  | .text "kind" => return (key, .text (← (v.inside levels e.2).text?))
  | _ => return (key, ← datum v.anchors levels e.2)

/-- A record that says its kind. -/
def kinded? (v : View) : Following Kinded := do
  match ← v.target, v.levels with
  | some (.mapping p entries), levels + 1 =>
    if p.ownTag?.isSome then failure
    else
      let (kind, others) ← Datum.splitKind (← entries.mapM (v.kindedEntry levels))
      return ⟨.name (← kind.text?), .map others⟩
  | some (.sequence p (kind :: items)), levels + 1 =>
    if p.ownTag?.isSome then failure
    else
      let kind ← (v.inside levels kind).text?
      return ⟨.name kind, .list (← items.mapM (datum v.anchors levels))⟩
  | _, _ => failure

instance : Document View Following where
  text? := text?
  flag? := flag?
  natural? := natural?
  optional? := optional?
  items? := items?
  entries? := entries?
  record? v := .named <$> v.entries?
  choice? := choice?
  kinded? := kinded?

end View

/-- The only document of a text, none when it is malformed or holds more than one. -/
def view? (text : String) : Option View := do
  let node ← document? (← tokens? text)
  some ⟨node, (node.map Anchors.ofNode).getD ⟨[], 0⟩, maxLevels⟩

end ConfigBinder.Yaml
