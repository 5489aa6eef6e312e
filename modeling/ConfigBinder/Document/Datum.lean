/-
Values read ahead of their meaning.

What kind of thing a record is may be said by a member that comes last.  Its members
are then kept as data, a form that both notations share, until the kind is known.
-/

namespace ConfigBinder

/-- A value whose reader is not known yet. -/
inductive Datum where
  | null
  | bool (value : Bool)
  /-- An integer without a minus sign. -/
  | natural (value : Nat)
  /-- An integer with a minus sign, which may stand before zero. -/
  | negative (magnitude : Nat)
  | real
  | text (value : String)
  | list (items : List Datum)
  | map (entries : List (Datum × Datum))
  deriving Inhabited

/-- What names one of a fixed row of things: its name, or its place in the row. -/
inductive Selector where
  | name (name : String)
  | place (index : Nat)
  deriving DecidableEq, Repr

/-- The member of a row that a selector names. -/
def Selector.pick? (row : List (String × α)) : Selector → Option α
  | .name n => row.lookup n
  | .place i => row[i]?.map (·.2)

namespace Datum

mutual
/-- The levels of lists and maps inside a value, its own included. -/
def height : Datum → Nat
  | .list items => heightOfItems items + 1
  | .map entries => heightOfEntries entries + 1
  | _ => 0
def heightOfItems : List Datum → Nat
  | [] => 0
  | d :: rest => max d.height (heightOfItems rest)
def heightOfEntries : List (Datum × Datum) → Nat
  | [] => 0
  | (_, d) :: rest => max d.height (heightOfEntries rest)
end

/-- What a value names when it stands for a name; with a minus sign no number is a
place. -/
def selector? : Datum → Option Selector
  | .text s => some (.name s)
  | .natural n => some (.place n)
  | _ => none

/-- The text that a value is. -/
def text? : Datum → Option String
  | .text s => some s
  | _ => none

/-- The natural number that a value is. -/
def natural? : Datum → Option Nat
  | .natural n => some n
  | .negative 0 => some 0
  | _ => none

/-- The items of a list. -/
def items? : Datum → Option (List Datum)
  | .list items => some items
  | _ => none

/-- The choice of one of a row of names: a text, or the only key of a map whose
value holds nothing. -/
def choice? : Datum → Option Selector
  | .text s => some (.name s)
  | .map [(k, .null)] => k.selector?
  | .map [(k, .map [])] => k.selector?
  | _ => none

/-- The place of a key in a row of names, `row.length` for a name outside the row;
none for a key that cannot name anything. -/
def keyPlace? (row : List String) (key : Datum) : Option Nat :=
  key.selector?.map fun
    | .name n => row.idxOf n
    | .place i => i

/-- The members of a record with the given names, by name: from a map, in which no
known name may come twice and others are passed over, or from a list, in the order
of the names. -/
def fields? (row : List String) : Datum → Option (String → Option Datum)
  | .map entries =>
    match entries.mapM fun (k, d) => (keyPlace? row k).map (·, d) with
    | none => none
    | some placed =>
      let known := placed.filter (·.1 < row.length)
      if (known.map (·.1)).Nodup then some fun name => known.lookup (row.idxOf name) else none
  | .list items =>
    if items.length ≤ row.length then some fun name => (row.zip items).lookup name else none
  | _ => none

end Datum

/-- A record whose kind has been read, with its other members. -/
structure Kinded where
  /-- What names the kind. -/
  kind : Selector
  /-- The other members as a map, or the items behind the kind as a list. -/
  rest : Datum

namespace Datum

/-- The only value whose key is `kind`, and the entries with other keys. -/
def splitKind {δ : Type} : List (Datum × δ) → Option (δ × List (Datum × δ))
  | [] => none
  | (.text "kind", d) :: rest =>
    if (rest.any fun e => e.1.text? = some "kind") then none else some (d, rest)
  | e :: rest => (splitKind rest).map fun (d, others) => (d, e :: others)

/-- The kind of a record and its other members. -/
def kinded? : Datum → Option Kinded
  | .map entries => do
    let (kind, others) ← splitKind entries
    some ⟨← kind.selector?, .map others⟩
  | .list (kind :: items) => do some ⟨← kind.selector?, .list items⟩
  | _ => none

end Datum

end ConfigBinder
