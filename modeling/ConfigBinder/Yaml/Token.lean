/-
Tokens of YAML text.

Indentation is told by tokens of its own: a block collection starts and ends with
one.  A key is announced by a token in front of it, although the text shows it to be
a key only behind it.
-/
import ConfigBinder.Yaml.Tag

namespace ConfigBinder.Yaml

/-- How a scalar is written. -/
inductive ScalarStyle where
  | plain
  | singleQuoted
  | doubleQuoted
  | literal
  | folded
  deriving DecidableEq, Repr

/-- A token. -/
inductive Token where
  | version (major minor : Nat)
  | tagHandle (handle : String) (expansion : Tag)
  | documentStart
  | documentEnd
  | blockSequenceStart
  | blockMappingStart
  | blockEnd
  | flowSequenceStart
  | flowSequenceEnd
  | flowMappingStart
  | flowMappingEnd
  | blockEntry
  | flowEntry
  | key
  | value
  | alias (name : String)
  | anchor (name : String)
  /-- A tag: what its handle stands for goes in front of the suffix; a tag without a
  handle is its suffix. -/
  | tag (handle : Option String) (suffix : Tag)
  | scalar (style : ScalarStyle) (text : String)
  deriving DecidableEq, Repr

end ConfigBinder.Yaml
