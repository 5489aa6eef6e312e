/-
Documents, whatever their notation.

A reader asks a document for a text, a flag, a number, a list, a record, and turns
the answers into values of its own.  A record is written with named members, or as
the bare row of their values.  A member that nobody asks for is passed over; a name
that is known must not come twice; a member that has a default may be missing.

A notation chooses the monad in which its documents answer: `Option` where an answer is
all there is to it, one with a state where asking uses something up.
-/
import ConfigBinder.Document.Datum

namespace ConfigBinder

/-- The members of a record, by name or in the order of the names. -/
inductive Record (δ : Type) where
  | named (members : List (String × δ))
  | positional (values : List δ)

/-- What a document answers.  Each answer fails when the document is of another
form. -/
class Document (δ : Type) (m : outParam (Type → Type)) where
  /-- A text. -/
  text? : δ → m String
  /-- True or false. -/
  flag? : δ → m Bool
  /-- A natural number. -/
  natural? : δ → m Nat
  /-- The value in a place that may be left empty, none when it is. -/
  optional? : δ → m (Option δ)
  /-- The items of a list. -/
  items? : δ → m (List δ)
  /-- The entries of a map from texts, in order; a key may come twice. -/
  entries? : δ → m (List (String × δ))
  /-- The members of a record. -/
  record? : δ → m (Record δ)
  /-- The choice of one of a row of names. -/
  choice? : δ → m Selector
  /-- A record that says its kind. -/
  kinded? : δ → m Kinded

namespace Record

variable {δ : Type}

/-- The members with the given names; none when one of the names comes twice, or
when there are more values than names. -/
def fields? (row : List String) : Record δ → Option (String → Option δ)
  | .named members =>
    let known := members.filter fun m => row.contains m.1
    if (known.map (·.1)).Nodup then some fun name => known.lookup name else none
  | .positional values =>
    if values.length ≤ row.length then some fun name => (row.zip values).lookup name else none

end Record

namespace Document

variable {δ : Type} {m : Type → Type} [Monad m] [MonadLiftT Option m] {α : Type}

/-- A member that must be there. -/
def required (read : δ → m α) (member : Option δ) : m α := do read (← member)

/-- A member that has a default. -/
def orDefault (fallback : α) (read : δ → m α) : Option δ → m α
  | none => return fallback
  | some d => read d

variable [Document δ m]

/-- The members of a record with the given names. -/
def fields? (row : List String) (d : δ) : m (String → Option δ) := do
  (← record? d).fields? row

/-- A list of values. -/
def list? (read : δ → m α) (d : δ) : m (List α) := do (← items? d).mapM read

/-- The entries of a map with their values read. -/
def map? (read : δ → m α) (d : δ) : m (List (String × α)) := do
  (← entries? d).mapM fun (k, v) => return (k, ← read v)

/-- The value in a place that may be left empty. -/
def option? (read : δ → m α) (d : δ) : m (Option α) := do
  match ← optional? d with
  | none => return none
  | some d => return some (← read d)

/-- The thing that a choice names. -/
def oneOf? (row : List (String × α)) (d : δ) : m α := do (← choice? d).pick? row

end Document

end ConfigBinder
