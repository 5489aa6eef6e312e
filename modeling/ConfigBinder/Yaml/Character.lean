/-
Characters of YAML text.

Only printable characters may stand in a text, in quotes and comments too.  The line
breaks CR, LF, CR LF and NEL mean the same; the two separators of Unicode also break
lines, but stay themselves inside a scalar.
-/

namespace ConfigBinder.Yaml

/-- Whether a character may stand in a text. -/
def isAllowed (c : Char) : Bool :=
  let n := c.toNat
  n == 0x09 || n == 0x0A || n == 0x0D || (0x20 ≤ n && n ≤ 0x7E) || n == 0x85 ||
    (0xA0 ≤ n && n ≤ 0xD7FF) || (0xE000 ≤ n && n ≤ 0xFFFD) || 0x10000 ≤ n

/-- The text with one form for the line breaks that mean the same. -/
def unifyBreaks : List Char → List Char
  | '\r' :: '\n' :: rest => '\n' :: unifyBreaks rest
  | '\r' :: rest => '\n' :: unifyBreaks rest
  | c :: rest => (if c = '\u0085' then '\n' else c) :: unifyBreaks rest
  | [] => []

/-- Whether a character breaks a line. -/
def isBreak (c : Char) : Bool := c = '\n' || c = '\u2028' || c = '\u2029'

/-- Whether a character separates within a line. -/
def isBlank (c : Char) : Bool := c = ' ' || c = '\t'

/-- Whether a character separates. -/
def isGap (c : Char) : Bool := isBlank c || isBreak c

/-- Whether a separator or the end comes next. -/
def endsWord : List Char → Bool
  | [] => true
  | c :: _ => isGap c

/-- Whether a character may stand in the name of an anchor, a handle or a directive. -/
def isNameChar (c : Char) : Bool := c.isAlphanum || c = '-' || c = '_'

/-- Whether a text begins with a document indicator that ends there. -/
def startsDocumentIndicator : List Char → Bool
  | '-' :: '-' :: '-' :: rest => endsWord rest
  | '.' :: '.' :: '.' :: rest => endsWord rest
  | _ => false

end ConfigBinder.Yaml
