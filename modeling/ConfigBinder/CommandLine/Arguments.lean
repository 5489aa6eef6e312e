/-
The arguments of the command line.

They are read from left to right.  What starts with a dash is an option, unless it is a
dash alone or stands behind a double dash.  An option's value follows it or stands behind
an equals sign; each option is given once at most, but the file of settings may be given
before and behind the command's name, and known types any number of times.
-/

namespace ConfigBinder.CommandLine

/-- How the outcome of a pass is shown. -/
inductive OutputFormat where
  | json
  | summary
  deriving DecidableEq, Repr

/-- What the program is asked to do. -/
inductive Command where
  /-- Take a binding pass over a snapshot. -/
  | analyze (snapshot : String) (format : OutputFormat) (output : Option String)
  /-- Replay the startup of a build's output against configured values. -/
  | validate (buildOutput properties : String) (knownTypes : List String)
  deriving DecidableEq, Repr

/-- What the arguments ask for. -/
inductive Request where
  | help
  | version
  | run (settings : Option String) (command : Command)
  deriving DecidableEq, Repr

/-- The options that take a value. -/
inductive Flag where
  | config
  | format
  | output
  | properties
  | knownType
  deriving DecidableEq, Repr

/-- Where an argument stands: in front of the command's name or behind it. -/
inductive Level where
  | top
  | analyze
  | validate
  deriving DecidableEq, Repr

/-- The options of a level with their names. -/
def Level.flags : Level → List (String × Flag)
  | .top => [("config", .config)]
  | .analyze => [("config", .config), ("format", .format), ("output", .output)]
  | .validate =>
    [("config", .config), ("properties", .properties), ("known-type", .knownType)]

/-- The commands with their names. -/
def Level.commands : List (String × Level) := [("analyze", .analyze), ("validate", .validate)]

/-- Whether an option may be given more than once. -/
def Flag.repeats : Flag → Bool
  | .knownType => true
  | _ => false

/-- The formats with their names. -/
def OutputFormat.named : List (String × OutputFormat) := [("json", .json), ("summary", .summary)]

/-- Whether a value may be given for an option: a path must not be empty, a format must
be one of the formats. -/
def Flag.accepts : Flag → String → Bool
  | .format, value => (OutputFormat.named.lookup value).isSome
  | .knownType, _ => true
  | _, value => value ≠ ""

/-- What the arguments of one level have given so far. -/
structure Given where
  values : List (Flag × String)
  positional : Option String
  deriving DecidableEq, Repr

namespace Given

/-- Nothing has been given. -/
def nothing : Given := ⟨[], none⟩

/-- The value of an option. -/
def value? (g : Given) (f : Flag) : Option String := g.values.lookup f

/-- The values of an option, in order. -/
def valuesOf (g : Given) (f : Flag) : List String :=
  g.values.filterMap fun (f', v) => if f' = f then some v else none

/-- One more value of an option, if it may be given. -/
def add? (g : Given) (f : Flag) (value : String) : Option Given :=
  if f.accepts value ∧ (f.repeats ∨ (g.value? f).isNone) then
    some { g with values := g.values ++ [(f, value)] }
  else none

/-- The argument that is no option, of which a command takes one. -/
def addPositional? (g : Given) (value : String) : Option Given :=
  if value ≠ "" ∧ g.positional.isNone then some { g with positional := some value } else none

end Given

/-- What one argument is. -/
inductive Argument where
  /-- A name behind two dashes, with what stands behind the equals sign. -/
  | long (name : String) (value : Option String)
  /-- Letters behind one dash. -/
  | short (letters : List Char)
  /-- The double dash. -/
  | separator
  | plain (value : String)
  deriving DecidableEq, Repr

/-- What an argument is by its form. -/
def Argument.ofText (s : String) : Argument :=
  match s.toList with
  | ['-', '-'] => .separator
  | '-' :: '-' :: cs =>
    match cs.dropWhile (· ≠ '=') with
    | '=' :: value => .long (String.ofList (cs.takeWhile (· ≠ '='))) (some (String.ofList value))
    | _ => .long (String.ofList cs) none
  | '-' :: c :: cs => .short (c :: cs)
  | _ => .plain s

/-- The arguments behind a double dash, none of which is an option. -/
def readPlain? (g : Given) : List String → Option Given
  | [] => some g
  | a :: rest => (g.addPositional? a).bind (readPlain? · rest)

/-- How the reading of a level ends. -/
inductive LevelEnd where
  /-- All arguments are read. -/
  | done (given : Given)
  /-- The first argument that is no option, and the arguments behind it. -/
  | word (given : Given) (word : String) (rest : List String)
  | help
  | version
  deriving DecidableEq, Repr

/-- What an option without a value asks for: help at each level, the version at the
top. -/
def longOption? (level : Level) (name : String) : Option LevelEnd :=
  if name = "help" then some .help
  else if name = "version" ∧ level = .top then some .version
  else none

/-- What a letter behind one dash asks for. -/
def shortOption? (level : Level) (letter : Char) : Option LevelEnd :=
  if letter = 'h' then some .help
  else if letter = 'V' ∧ level = .top then some .version
  else none

/-- Reads the arguments of a level, up to the command's name at the top.  There is no
result when the arguments are wrong. -/
def readLevel? (level : Level) (g : Given) : List String → Option LevelEnd
  | [] => some (.done g)
  | a :: rest =>
    match Argument.ofText a with
    | .separator => if level = .top then none else (readPlain? g rest).map .done
    | .short letters => letters.head?.bind (shortOption? level)
    | .plain value =>
      if level = .top then some (.word g value rest)
      else (g.addPositional? value).bind (readLevel? level · rest)
    | .long name value =>
      match level.flags.lookup name, value with
      | some f, some v => (g.add? f v).bind (readLevel? level · rest)
      | some f, none =>
        match rest with
        | b :: rest =>
          match Argument.ofText b with
          | .plain v => (g.add? f v).bind (readLevel? level · rest)
          | _ => none
        | [] => none
      | none, none => longOption? level name
      | none, some _ => none

/-- The command that a level's arguments make. -/
def command? (level : Level) (g : Given) : Option Command :=
  match level with
  | .top => none
  | .analyze =>
    g.positional.map fun snapshot =>
      .analyze snapshot (((g.value? .format).bind (OutputFormat.named.lookup ·)).getD .summary)
        (g.value? .output)
  | .validate => do
    some (.validate (← g.positional) (← g.value? .properties) (g.valuesOf .knownType))

/-- Whether the words behind the help command name something. -/
def isHelpTopic : List String → Bool
  | [] => true
  | [topic] => topic = "help" || (Level.commands.lookup topic).isSome
  | _ => false

/-- What arguments ask for; none when they are wrong. -/
def Request.ofArguments? (arguments : List String) : Option Request := do
  match ← readLevel? .top .nothing arguments with
  | .help => some .help
  | .version => some .version
  | .done _ => none
  | .word top word rest =>
    if word = "help" then (if isHelpTopic rest then some .help else none)
    else
      let level ← Level.commands.lookup word
      match ← readLevel? level .nothing rest with
      | .help => some .help
      | .done g => do
        some (.run ((g.value? .config).or (top.value? .config)) (← command? level g))
      | _ => none

end ConfigBinder.CommandLine
