/-
Tags of YAML nodes.

A tag is a row of characters, some of them written as escaped bytes.  Bytes that are no
character keep their place in the row, and a null character ends the tag, whatever is
written behind it.  A tag that begins with an exclamation mark is one of the program's
own; its name is what follows the mark, and the mark itself where nothing follows.
-/

namespace ConfigBinder.Yaml

/-- The text of a tag: its characters, and `none` where escaped bytes are no
character. -/
abbrev Tag := List (Option Char)

namespace Tag

/-- The tag that a text spells. -/
def ofString (s : String) : Tag := s.toList.map some

/-- A tag up to its first null character. -/
def upToNull (t : Tag) : Tag := t.takeWhile (· ≠ some '\x00')

/-- A tag of the core schema. -/
def core (name : String) : Tag := ofString ("tag:yaml.org,2002:" ++ name)

/-- Whether a tag is one of the program's own. -/
def isOwn (t : Tag) : Bool := t.head? = some (some '!')

/-- The characters behind an exclamation mark in front, unless it is the only one. -/
def behindMark : List Char → List Char
  | '!' :: c :: rest => c :: rest
  | cs => cs

/-- The name of a tag of the program's own, none when the tag is no text. -/
def ownName? (t : Tag) : Option String :=
  if t.isOwn then (t.mapM id).map fun cs => String.ofList (behindMark cs) else none

end Tag

end ConfigBinder.Yaml
