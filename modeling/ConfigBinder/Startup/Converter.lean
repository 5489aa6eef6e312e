/-
Whether a configured text converts to a type.

A converter accepts a text or says why not.  Each primitive type reads the text
without the white space around it; an array reads the items between commas, and
passes over blank ones.
-/
import ConfigBinder.Decimal.Integer
import ConfigBinder.Decimal.Numeral
import ConfigBinder.Text.Blank
import ConfigBinder.Type.Ref

namespace ConfigBinder

/-- Accepts a text, or says why not. -/
abbrev Converter := String → Except String Unit

namespace Converter

/-- Accepts every text. -/
def anything : Converter := fun _ => .ok ()

/-- The words for a truth value, in small letters. -/
def booleanWords : List String := ["true", "false", "yes", "no", "on", "off", "1", "0"]

/-- Whether the characters are a word for a truth value, in any case of letters.  No
character outside ASCII has one of their letters as its small form. -/
def checkBoolean (cs : List Char) : Except String Unit :=
  if booleanWords.contains (String.ofList (cs.map Char.toLower)) then .ok ()
  else .error "expected a boolean"

/-- Whether the characters are an integer of a width. -/
def checkInteger (width : Nat) (cs : List Char) : Except String Unit :=
  match Decimal.readInteger width cs with
  | .ok _ => .ok ()
  | .error fault => .error fault.message

/-- Whether the characters are a floating-point number. -/
def checkFloat (cs : List Char) : Except String Unit :=
  match Decimal.checkFloat cs with
  | .ok () => .ok ()
  | .error fault => .error fault.message

/-- Whether there is just one character. -/
def checkCharacter (cs : List Char) : Except String Unit :=
  if cs.length = 1 then .ok () else .error "expected a single character"

/-- Whether trimmed characters convert to a primitive type. -/
def checkPrimitive : Primitive → List Char → Except String Unit
  | .boolean => checkBoolean
  | .byte => checkInteger 8
  | .short => checkInteger 16
  | .int => checkInteger 32
  | .long => checkInteger 64
  | .float => checkFloat
  | .double => checkFloat
  | .char => checkCharacter

/-- The converter of a primitive type.  It shows the text that it refuses. -/
def primitive (p : Primitive) : Converter := fun raw =>
  match checkPrimitive p (Text.trimChars raw.toList) with
  | .ok () => .ok ()
  | .error reason => .error s!"'{raw}': {reason}"

/-- The items of an array: what stands between commas, trimmed, without the empty
ones. -/
def items (raw : String) : List String :=
  (((raw.toList.splitOn ',').map Text.trimChars).filter (· ≠ [])).map String.ofList

/-- The converter of an array: each item must convert, and the first that does not is
told. -/
def array (element : Converter) : Converter := fun raw => (items raw).forM element

end Converter

end ConfigBinder
