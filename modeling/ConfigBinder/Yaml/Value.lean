/-
YAML values of every kind.

A mapping must not have two keys that are the same value.  Zero is the same with and
without a sign, what is not a number is the same as itself, and the order of a mapping's
entries does not count.
-/
import ConfigBinder.Yaml.Document

namespace ConfigBinder.Yaml

/-- A value. -/
inductive Value where
  | null
  | bool (value : Bool)
  | int (value : Int)
  | float (value : Decimal.Binary64)
  | infinity (negative : Bool)
  | notANumber
  | text (value : String)
  | sequence (items : List Value)
  | mapping (entries : List (Value × Value))
  | tagged (tag : String) (value : Value)
  deriving Inhabited

namespace Value

/-- A meaning as a value. -/
def ofMeaning : Meaning → Value
  | .null => .null
  | .bool b => .bool b
  | .natural n => .int n
  | .negative n => .int (-n)
  | .float x => .float x
  | .infinity negative => .infinity negative
  | .notANumber => .notANumber
  | .text s => .text s

mutual
/-- Whether two values are the same. -/
def same : Value → Value → Bool
  | .null, .null => true
  | .bool a, .bool b => a = b
  | .int a, .int b => a = b
  | .float a, .float b => a = b || (a.mantissa = 0 && b.mantissa = 0)
  | .infinity a, .infinity b => a = b
  | .notANumber, .notANumber => true
  | .text a, .text b => a = b
  | .sequence xs, .sequence ys => sameItems xs ys
  | .mapping xs, .mapping ys => xs.length = ys.length && sameEntries xs ys
  | .tagged s v, .tagged t w => s = t && same v w
  | _, _ => false
def sameItems : List Value → List Value → Bool
  | [], [] => true
  | x :: xs, y :: ys => same x y && sameItems xs ys
  | _, _ => false
def sameEntries : List (Value × Value) → List (Value × Value) → Bool
  | [], _ => true
  | (k, v) :: rest, ys => (ys.any fun (l, w) => same k l && same v w) && sameEntries rest ys
end

/-- Whether no two keys of a row of entries are the same. -/
def keysDiffer : List (Value × Value) → Bool
  | [] => true
  | (k, _) :: rest => !(rest.any fun e => same k e.1) && keysDiffer rest

/-- The entries as a mapping, if their keys differ. -/
def ofEntries? (entries : List (Value × Value)) : Option Value :=
  if keysDiffer entries then some (.mapping entries) else none

/-- A value under the tag of its node, if that is one of the program's own; one more
exclamation mark in front makes no other tag. -/
def underTag (p : Properties) (v : Value) : Value :=
  match p.ownTag? with
  | none => v
  | some name => .tagged (String.ofList (Tag.behindMark name.toList)) v

/-- The value of a node inside so many levels. -/
def read (anchors : Anchors) : Nat → Node → Following Value
  | levels, n => do
    match ← anchors.follow n, levels with
    | .scalar p style s, _ =>
      (Meaning.ofScalar? p.tag style s).map fun meaning => underTag p (ofMeaning meaning)
    | .sequence p items, levels + 1 =>
      return underTag p (.sequence (← items.mapM (read anchors levels)))
    | .mapping p entries, levels + 1 =>
      let entries ← entries.mapM fun (k, v) => do
        return (← read anchors levels k, ← read anchors levels v)
      (ofEntries? entries).map (underTag p)
    | _, _ => failure

/-- The entries of a document that is a mapping from texts; without content it has
none. -/
def entries? (v : View) : Following (List (String × Value)) := do
  (← v.entries?).mapM fun (k, w) =>
    match w.node with
    | some n => return (k, ← read w.anchors w.levels n)
    | none => failure

end Value

end ConfigBinder.Yaml
