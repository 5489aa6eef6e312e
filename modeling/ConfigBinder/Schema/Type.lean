/-
The written form of names and types.

A name is a text.  A type is a record that says its kind; the arguments of an applied
class may be left out when there are none.
-/
import ConfigBinder.Document.Basic
import ConfigBinder.Json.Basic
import ConfigBinder.Type.Ref

namespace ConfigBinder

variable {δ : Type} {m : Type → Type} [Monad m] [MonadLiftT Option m] [Document δ m]

namespace QualifiedName

def toJson (n : QualifiedName) : Json := .text n.text

/-- The name that a document is. -/
def ofDocument? (d : δ) : m QualifiedName := .mk <$> Document.text? d

/-- The name that a value read ahead is. -/
def ofDatum? (d : Datum) : Option QualifiedName := d.text?.map .mk

end QualifiedName

def Primitive.toJson (p : Primitive) : Json := .text p.name

/-- The primitive type that a value read ahead names. -/
def Primitive.ofDatum? (d : Datum) : Option Primitive := d.choice?.bind (Selector.pick? named)

namespace TypeRef

mutual
def toJson : TypeRef → Json
  | .primitive p => .object [("kind", .text "primitive"), ("primitive", p.toJson)]
  | .named n => .object [("kind", .text "class"), ("name", n.toJson)]
  | .applied n arguments =>
    .object [("kind", .text "parameterized"), ("name", n.toJson),
      ("arguments", .array (toJsons arguments))]
  | .array e => .object [("kind", .text "array"), ("component", e.toJson)]
def toJsons : List TypeRef → List Json
  | [] => []
  | t :: rest => t.toJson :: toJsons rest
end

inductive Kind where
  | primitive
  | named
  | applied
  | array
  deriving DecidableEq, Repr

def kinds : List (String × Kind) :=
  [("primitive", .primitive), ("class", .named), ("parameterized", .applied),
    ("array", .array)]

/-- The type that a record of a known kind is; the fuel bounds how deep types nest. -/
def ofKinded? : Nat → Kinded → Option TypeRef
  | 0, _ => none
  | fuel + 1, k => do
    let nested := fun (d : Datum) => d.kinded?.bind (ofKinded? fuel)
    match ← k.kind.pick? kinds with
    | .primitive =>
      let get ← k.rest.fields? ["primitive"]
      some (.primitive (← (get "primitive").bind Primitive.ofDatum?))
    | .named =>
      let get ← k.rest.fields? ["name"]
      some (.named (← (get "name").bind QualifiedName.ofDatum?))
    | .applied =>
      let get ← k.rest.fields? ["name", "arguments"]
      let name ← (get "name").bind QualifiedName.ofDatum?
      let arguments ← Document.orDefault [] (fun d => d.items?.bind (·.mapM nested))
        (get "arguments")
      some (.applied name arguments)
    | .array =>
      let get ← k.rest.fields? ["component"]
      some (.array (← (get "component").bind nested))

/-- The type that a document is. -/
def ofDocument? (d : δ) : m TypeRef := do
  let k ← Document.kinded? d
  ofKinded? (k.rest.height + 1) k

end TypeRef

end ConfigBinder
