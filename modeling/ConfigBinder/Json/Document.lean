/-
JSON values as documents.

A document may nest arrays and objects to 127 levels; what is passed over unread
does not count.
-/
import ConfigBinder.Document.Basic
import ConfigBinder.Json.Parser

namespace ConfigBinder.Json

/-- The levels of arrays and objects that a document may have. -/
def maxHeight : Nat := 127

/-- A value with the levels that may still open inside it. -/
structure View where
  value : Json
  levels : Nat

/-- The data that a value holds, if no more levels open than are left. -/
def datum? : Nat → Json → Option Datum
  | _, .null => some .null
  | _, .bool b => some (.bool b)
  | _, .int (.ofNat n) => some (.natural n)
  | _, .int (.negSucc n) => some (.negative (n + 1))
  | _, .real _ => some .real
  | _, .text s => some (.text s)
  | levels + 1, .array items => (items.mapM (datum? levels)).map .list
  | levels + 1, .object members =>
    (members.mapM fun (k, v) => (datum? levels v).map (Datum.text k, ·)).map .map
  | 0, .array _ => none
  | 0, .object _ => none
  | _, .flawed => none

namespace View

/-- The text that a value is. -/
def text? (v : View) : Option String :=
  match v.value with
  | .text s => some s
  | _ => none

/-- The items of an array, one level further in. -/
def items? (v : View) : Option (List View) :=
  match v.levels, v.value with
  | levels + 1, .array items => some (items.map (⟨·, levels⟩))
  | _, _ => none

/-- The members of an object, one level further in. -/
def entries? (v : View) : Option (List (String × View)) :=
  match v.levels, v.value with
  | levels + 1, .object members => some (members.map fun (k, w) => (k, ⟨w, levels⟩))
  | _, _ => none

/-- The kind of a record and its other members. -/
def kinded? (v : View) : Option Kinded :=
  match v.levels, v.value with
  | levels + 1, .object members => do
    let (kind, others) ← Datum.splitKind (members.map fun (k, w) => (Datum.text k, w))
    let kind ← text? ⟨kind, levels⟩
    let others ← others.mapM fun (k, w) => (datum? levels w).map (k, ·)
    some ⟨.name kind, .map others⟩
  | levels + 1, .array (kind :: items) => do
    let kind ← text? ⟨kind, levels⟩
    let items ← items.mapM (datum? levels)
    some ⟨.name kind, .list items⟩
  | _, _ => none

instance : Document View Option where
  text? := text?
  flag? v :=
    match v.value with
    | .bool b => some b
    | _ => none
  natural? v :=
    match v.value with
    | .int n => if 0 ≤ n then some n.toNat else none
    | _ => none
  optional? v :=
    match v.value with
    | .null => some none
    | _ => some (some v)
  items? := items?
  entries? := entries?
  record? v :=
    match v.value with
    | .array _ => (items? v).map .positional
    | _ => (entries? v).map .named
  choice? v :=
    match v.levels, v.value with
    | _, .text s => some (.name s)
    | _ + 1, .object [(k, .null)] => some (.name k)
    | _, _ => none
  kinded? := kinded?

end View

/-- A whole value as a document. -/
def view (v : Json) : View := ⟨v, maxHeight⟩

end ConfigBinder.Json
