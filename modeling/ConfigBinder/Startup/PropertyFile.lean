/-
Configured values from a file.

A file maps property names to values.  A scalar is configured as its text, a sequence
as the texts of its items between commas; what holds nothing, is a mapping or has a tag
of the program's own configures nothing.
-/
import ConfigBinder.Json.Printer
import ConfigBinder.Ordered.Map
import ConfigBinder.Yaml.Value

namespace ConfigBinder.PropertyFile

open Yaml

mutual
/-- The text that a value is configured as. -/
def render? : Value → Option String
  | .null => none
  | .bool true => some "true"
  | .bool false => some "false"
  | .int n => some (String.ofList (Json.intChars n))
  | .float x => some (String.ofList x.text)
  | .infinity false => some ".inf"
  | .infinity true => some "-.inf"
  | .notANumber => some ".nan"
  | .text s => some s
  | .sequence items => some (",".intercalate (renderItems items))
  | .mapping _ => none
  | .tagged _ _ => none
def renderItems : List Value → List String
  | [] => []
  | v :: rest => (render? v).toList ++ renderItems rest
end

/-- The configured texts of a row of entries; of two for one name the later counts,
whether it configures something or not. -/
def ofEntries (entries : List (String × Value)) : OrderedMap String String :=
  .ofList ((OrderedMap.ofList entries).entries.filterMap fun (k, v) => (render? v).map (k, ·))

/-- The configured texts of a file, none when it is malformed. -/
def ofText? (text : String) : Option (OrderedMap String String) :=
  ((view? text).bind (·.answer? Value.entries?)).map ofEntries

end ConfigBinder.PropertyFile
