/-
The text of scalars.

Inside plain and quoted scalars, what separates words is folded: one line break
becomes a space, more of them lose the first.  Block scalars keep their lines, or fold
those that neither begin nor follow with a blank.
-/
import ConfigBinder.Yaml.Character
import ConfigBinder.Yaml.Property

namespace ConfigBinder.Yaml

/-- What the line breaks of a gap fold to. -/
def foldBreaks : List Char → List Char
  | ['\n'] => [' ']
  | '\n' :: more => more
  | breaks => breaks

/-- What a gap between words folds to. -/
def foldGap (gap : List Char) : List Char :=
  if gap.any isBreak then foldBreaks (gap.filter isBreak) else gap

/-- The blanks behind the last line break of a gap. -/
def lastBlanks (gap : List Char) : List Char := (gap.reverse.takeWhile isBlank).reverse

/-- Whether a gap ends at the start of a line. -/
def endsAtLineStart (gap : List Char) : Bool :=
  match gap.getLast? with
  | some c => isBreak c
  | none => false

/-! ### Plain scalars -/

namespace Plain

/-- The brackets and the comma of flow collections. -/
def flowIndicators : List Char := [',', '[', ']', '{', '}']

/-- A run of characters without separators; none for a colon that a flow indicator
follows at once inside a flow collection. -/
def run? (inFlow : Bool) : List Char → Option (List Char × List Char)
  | [] => some ([], [])
  | c :: rest =>
    if isGap c then some ([], c :: rest)
    else if c = ':' ∧ endsWord rest then some ([], c :: rest)
    else if c = ':' ∧ inFlow ∧ (rest.head?.any fun d => d = '?' || flowIndicators.contains d) then
      none
    else if inFlow ∧ flowIndicators.contains c then some ([], c :: rest)
    else (run? inFlow rest).map fun (more, rest) => (c :: more, rest)

/-- Whether a tab stands where a line is still indented, in a gap that goes on at a
column; before its first line break nothing is. -/
def tabAbuses (indent : Nat) : Option Nat → List Char → Bool
  | _, [] => false
  | column, c :: rest =>
    if isBreak c then tabAbuses indent (some 0) rest
    else
      match column with
      | some n => (c = '\t' && n < indent) || tabAbuses indent (some (n + 1)) rest
      | none => tabAbuses indent none rest

/-- A plain scalar as it is read. -/
structure Reading where
  text : List Char
  /-- Whether a line break follows the text. -/
  brokenOff : Bool
  /-- The number of characters passed, a gap behind the text among them. -/
  passed : Nat

/-- Whether a scalar goes on behind a gap. -/
def goesOn (inFlow : Bool) (indent : Nat) (gap rest : List Char) : Bool :=
  if gap.any isBreak then
    (inFlow || indent ≤ (lastBlanks gap).length) &&
      !(endsAtLineStart gap && startsDocumentIndicator rest) && rest.head? ≠ some '#'
  else rest.head? ≠ some '#'

/-- Reads on behind a run; the fuel bounds the number of runs. -/
def more? (inFlow : Bool) (indent : Nat) : Nat → List Char → Option Reading
  | 0, _ => some ⟨[], false, 0⟩
  | fuel + 1, cs =>
    let gap := cs.takeWhile isGap
    let rest := cs.dropWhile isGap
    if gap = [] then some ⟨[], false, 0⟩
    else if tabAbuses indent none gap then none
    else
      let stop : Reading := ⟨[], gap.any isBreak, gap.length⟩
      if goesOn inFlow indent gap rest then
        match run? inFlow rest with
        | none => none
        | some ([], _) => some stop
        | some (run, rest) =>
          (more? inFlow indent fuel rest).map fun r =>
            { r with
              text := foldGap gap ++ run ++ r.text
              passed := gap.length + run.length + r.passed }
      else some stop

/-- Reads a plain scalar whose further lines are indented; the fuel bounds the number of
its characters. -/
def read? (fuel : Nat) (inFlow : Bool) (indent : Nat) (cs : List Char) : Option Reading := do
  let (run, rest) ← run? inFlow cs
  let r ← more? inFlow indent fuel rest
  some { r with text := run ++ r.text, passed := run.length + r.passed }

end Plain

/-! ### Quoted scalars -/

namespace Quoted

/-- The character of a short escape. -/
def short? (c : Char) : Option Char :=
  if c = '0' then some '\x00'
  else if c = 'a' then some '\x07'
  else if c = 'b' then some '\x08'
  else if c = 't' ∨ c = '\t' then some '\t'
  else if c = 'n' then some '\n'
  else if c = 'v' then some '\x0b'
  else if c = 'f' then some '\x0c'
  else if c = 'r' then some '\r'
  else if c = 'e' then some '\x1b'
  else if c = ' ' ∨ c = '"' ∨ c = '/' ∨ c = '\\' then some c
  else if c = 'N' then some '\u0085'
  else if c = '_' then some '\u00a0'
  else if c = 'L' then some '\u2028'
  else if c = 'P' then some '\u2029'
  else none

/-- How many hexadecimal digits follow the letter of an escape. -/
def codeLength? (c : Char) : Option Nat :=
  if c = 'x' then some 2
  else if c = 'u' then some 4
  else if c = 'U' then some 8
  else none

/-- The character with a code, which must be no surrogate. -/
def coded? (ds : List Char) : Option Char := do
  let n ← Text.number? 16 ds
  if n.isValidChar then some (Char.ofNat n) else none

/-- The character that an escape stands for, from behind its backslash. -/
def escape? : List Char → Option (Char × List Char)
  | [] => none
  | c :: rest =>
    match codeLength? c with
    | some n =>
      if (rest.take n).length = n then (coded? (rest.take n)).map (·, rest.drop n) else none
    | none => (short? c).map (·, rest)

/-- A run of characters without separators, up to the closing quote; the flag tells
that an escaped line break ended it, which is passed.  The fuel bounds the number of
characters. -/
def run? (double : Bool) : Nat → List Char → Option (List Char × Bool × List Char)
  | 0, cs => some ([], false, cs)
  | _, [] => some ([], false, [])
  | fuel + 1, c :: rest =>
    let next := fun (d : Char) (rest : List Char) =>
      (run? double fuel rest).map fun (more, escaped, rest) => (d :: more, escaped, rest)
    if isGap c then some ([], false, c :: rest)
    else if double then
      if c = '"' then some ([], false, c :: rest)
      else if c = '\\' then
        match rest with
        | b :: after =>
          if isBreak b then some ([], true, after)
          else (escape? (b :: after)).bind fun (d, rest) => next d rest
        | [] => none
      else next c rest
    else if c = '\'' then
      match rest with
      | '\'' :: after => next '\'' after
      | _ => some ([], false, c :: rest)
    else next c rest

/-- What the gap behind a run folds to; behind an escaped line break the blanks are
left out and the breaks stay. -/
def fold (escaped : Bool) (gap : List Char) : List Char :=
  if escaped then gap.filter isBreak else foldGap gap

/-- The quote around a scalar. -/
def mark (double : Bool) : Char := if double then '"' else '\''

/-- The text up to the closing quote; the flag tells that it goes on at the start of a
line, and the fuel bounds the number of its characters. -/
def text? (double : Bool) : Nat → Bool → List Char → Option (List Char)
  | 0, _, _ => none
  | fuel + 1, atLineStart, cs =>
    if atLineStart ∧ startsDocumentIndicator cs then none
    else do
      let (run, escaped, rest) ← run? double (fuel + 1) cs
      if rest.head? = some (mark double) then some run
      else if rest = [] then none
      else
        let gap := rest.takeWhile isGap
        let lineStart := if gap = [] then escaped else endsAtLineStart gap
        let more ← text? double fuel lineStart (rest.dropWhile isGap)
        some (run ++ fold escaped gap ++ more)

/-- The source of a scalar up to the closing quote, that one included. -/
def source? (double : Bool) : List Char → Option (List Char)
  | [] => none
  | c :: d :: rest =>
    if (double && c = '\\') || (!double && c = '\'' && d = '\'') then
      (source? double rest).map (c :: d :: ·)
    else if c = mark double then some [c]
    else (source? double (d :: rest)).map (c :: ·)
  | [c] => if c = mark double then some [c] else none

/-- A quoted scalar, from behind its opening quote: its text, and the number of
characters passed. -/
def read? (double : Bool) (cs : List Char) : Option (List Char × Nat) := do
  let source ← source? double cs
  some (← text? double (source.length + 1) false source, source.length)

end Quoted

/-! ### Block scalars -/

namespace Block

/-- What becomes of the line breaks at the end. -/
inductive Chomping where
  | strip
  | clip
  | keep
  deriving DecidableEq, Repr

/-- What the sign in the header of a block scalar asks for. -/
def chomping? (c : Char) : Option Chomping :=
  if c = '-' then some .strip else if c = '+' then some .keep else none

/-- An explicit indentation, from one to nine. -/
def increment? (c : Char) : Option Nat :=
  if c.isDigit ∧ c ≠ '0' then some (Decimal.digitValue c) else none

/-- The header of a block scalar in either order, each part at most once; what is left
must end the line. -/
def header (cs : List Char) : Chomping × Option Nat × List Char :=
  match cs with
  | [] => (.clip, none, [])
  | c :: rest =>
    match chomping? c, increment? c with
    | some chomping, _ =>
      match rest with
      | d :: after =>
        match increment? d with
        | some n => (chomping, some n, after)
        | none => (chomping, none, rest)
      | [] => (chomping, none, [])
    | none, some n =>
      match rest with
      | d :: after =>
        match chomping? d with
        | some chomping => (chomping, some n, after)
        | none => (.clip, some n, rest)
      | [] => (.clip, some n, [])
    | none, none => (.clip, none, cs)

/-- Lines without content: their breaks, the deepest indentation seen, the column and the
text that follow, and the number of characters passed. -/
structure Gap where
  breaks : List Char
  deepest : Nat
  column : Nat
  rest : List Char
  passed : Nat

/-- Passes indentation and the lines without content; without a known indentation
every space counts as such.  No tab may stand in the indentation.  The fuel bounds the
number of lines. -/
def gap? (indent : Option Nat) : Nat → List Char → Option Gap
  | 0, cs => some ⟨[], 0, 0, cs, 0⟩
  | fuel + 1, cs =>
    let spaces := (cs.takeWhile (· = ' ')).length
    let column := indent.elim spaces (min spaces)
    let rest := cs.drop column
    match rest with
    | [] => some ⟨[], column, column, [], column⟩
    | c :: after =>
      if c = '\t' ∧ (indent.all fun n => column < n) then none
      else if isBreak c then
        (gap? indent fuel after).map fun g =>
          { g with
            breaks := c :: g.breaks
            deepest := max column g.deepest
            passed := column + 1 + g.passed }
      else some ⟨[], column, column, rest, column⟩

/-- Whether a line begins with a blank. -/
def startsBlank : List Char → Bool
  | c :: _ => isBlank c
  | [] => false

/-- What stands between two lines of content.  In a folded scalar the break between
two lines that begin with no blank is a space, or goes when more breaks follow. -/
def joint (folded leadingBlank trailingBlank : Bool) (first : List Char) (more : List Char) :
    List Char :=
  if folded ∧ first = ['\n'] ∧ !leadingBlank ∧ !trailingBlank then
    if more = [] then [' '] else more
  else first ++ more

/-- The end of a scalar after chomping. -/
def chomp : Chomping → List Char → List Char → List Char
  | .strip, _, _ => []
  | .clip, first, _ => first
  | .keep, first, more => first ++ more

/-- The text of the lines of content, given what stands in front of them: whether the
last line began with a blank, and its break.  With it comes the number of characters
passed; the fuel bounds the number of lines. -/
def lines? (folded : Bool) (chomping : Chomping) (indent : Nat) :
    Nat → Bool → List Char → Gap → Option (List Char × Nat)
  | 0, _, first, g => some (chomp chomping first g.breaks, g.passed)
  | fuel + 1, leadingBlank, first, g =>
    if g.column = indent ∧ g.rest ≠ [] then do
      let line := g.rest.takeWhile fun c => !isBreak c
      let behind := g.rest.dropWhile fun c => !isBreak c
      let lineBreak := behind.take 1
      let blank := startsBlank line
      let next ← gap? (some indent) (fuel + 1) (behind.drop 1)
      let (text, passed) ← lines? folded chomping indent fuel blank lineBreak next
      some (joint folded leadingBlank blank first g.breaks ++ line ++ text,
        g.passed + line.length + lineBreak.length + passed)
    else some (chomp chomping first g.breaks, g.passed)

/-- Reads a block scalar from behind its indicator, with the number of characters
passed; `parent` is the column of the collection around it, if there is one.  The fuel
bounds the number of its lines. -/
def read? (fuel : Nat) (folded : Bool) (parent : Option Nat) (cs : List Char) :
    Option (List Char × Nat) := do
  let headerLine := cs.takeWhile fun c => !isBreak c
  let rest := cs.drop (headerLine.length + 1)
  let (chomping, increment, behind) := header headerLine
  if endsLine behind then
    let explicit := increment.map (parent.getD 0 + ·)
    let g ← gap? explicit fuel rest
    let least := (parent.map (· + 1)).getD 0
    let indent := explicit.getD (max 1 (max least g.deepest))
    let (text, passed) ← lines? folded chomping indent fuel false [] g
    some (text, headerLine.length + 1 + passed)
  else none

end Block

end ConfigBinder.Yaml
