/-
A working directory with text files.

A path is followed a name at a time.  What stands around the working directory is not
known: the directories above are there, nothing is found in them, and what is written to
them is not seen again.
-/

namespace ConfigBinder.CommandLine

/-- Why a file cannot be read or written. -/
inductive FileFault where
  | notFound
  | notDirectory
  | isDirectory
  | nameTooLong
  deriving DecidableEq, Repr

def FileFault.message : FileFault → String
  | .notFound => "No such file or directory (os error 2)"
  | .notDirectory => "Not a directory (os error 20)"
  | .isDirectory => "Is a directory (os error 21)"
  | .nameTooLong => "File name too long (os error 36)"

/-! ### Paths -/

/-- The names and dots of a path, which stand between slashes. -/
def pathNames (path : String) : List String :=
  ((path.toList.splitOn '/').filter (· ≠ [])).map String.ofList

/-- Whether a piece of a path stays where it is. -/
def isHere (name : String) : Bool := name = "."

/-- Whether a piece of a path leads up. -/
def isUp (name : String) : Bool := name = ".."

/-- The extension of the file that a path names: what follows the last point in its
name, unless that point comes first. -/
def pathExtension? (path : String) : Option String := do
  let name ← ((pathNames path).reverse.dropWhile isHere).head?
  let cs := name.toList.reverse
  match cs.dropWhile (· ≠ '.') with
  | _ :: before =>
    if isUp name ∨ before = [] then none
    else some (String.ofList (cs.takeWhile (· ≠ '.')).reverse)
  | [] => none

/-- The most bytes that a name may have. -/
def maxNameBytes : Nat := 255

/-- The most bytes that a path may have. -/
def maxPathBytes : Nat := 4095

/-! ### Directories -/

/-- A working directory: the files by the names on the way to them. -/
structure Directory where
  files : List (List String × String)
  deriving DecidableEq, Repr

namespace Directory

/-- A directory that holds files with given paths. -/
def ofFiles (files : List (String × String)) : Directory :=
  ⟨files.map fun (path, text) => ((pathNames path).filter fun n => !isHere n, text)⟩

/-- Whether a file stands at the end of a way. -/
def isFile (d : Directory) (way : List String) : Bool := (d.files.lookup way).isSome

/-- Whether a way leads to a directory: to the working directory, or part of the way to
a file. -/
def isDirectory (d : Directory) (way : List String) : Bool :=
  way = [] || d.files.any fun (f, _) => way.isPrefixOf f && f ≠ way

/-- A place that a path passes. -/
inductive Place where
  /-- At the end of a way from the working directory. -/
  | inside (way : List String)
  /-- Above the working directory. -/
  | above
  deriving DecidableEq, Repr

/-- Enters the directory that a piece of a path names. -/
def enter (d : Directory) (p : Place) (name : String) : Except FileFault Place :=
  if isHere name then .ok p
  else if isUp name then
    match p with
    | .inside (n :: way) => .ok (.inside (n :: way).dropLast)
    | _ => .ok .above
  else if maxNameBytes < name.utf8ByteSize then .error .nameTooLong
  else
    match p with
    | .inside way =>
      let next := way ++ [name]
      if d.isDirectory next then .ok (.inside next)
      else .error (if d.isFile next then .notDirectory else .notFound)
    | .above => .error .notFound

/-- Where a path leads: to a directory, or to a name in one, which a slash behind it
says to be a directory. -/
inductive Target where
  | directory
  | entry (place : Place) (name : String) (slash : Bool)
  deriving DecidableEq, Repr

/-- Where a path leads.  All but its last piece are directories. -/
def target (d : Directory) (path : String) : Except FileFault Target := do
  let start : Place := if path.toList.head? = some '/' then .above else .inside []
  if path = "" then .error .notFound
  else if maxPathBytes < path.utf8ByteSize then .error .nameTooLong
  else
    let names := pathNames path
    let p ← names.dropLast.foldlM d.enter start
    match names.getLast? with
    | none => return .directory
    | some name =>
      if isHere name || isUp name then return .directory
      else return .entry p name (path.toList.getLast? = some '/')

/-- The text of a file. -/
def read (d : Directory) (path : String) : Except FileFault String := do
  match ← d.target path with
  | .directory => .error .isDirectory
  | .entry p name slash =>
    if maxNameBytes < name.utf8ByteSize then .error .nameTooLong
    else
      match p with
      | .above => .error .notFound
      | .inside way =>
        if d.isDirectory (way ++ [name]) then .error .isDirectory
        else
          match d.files.lookup (way ++ [name]) with
          | none => .error .notFound
          | some text => if slash then .error .notDirectory else .ok text

/-- The directory with a text put at the end of a way. -/
def put (d : Directory) (way : List String) (text : String) : Directory :=
  ⟨d.files.filter (·.1 ≠ way) ++ [(way, text)]⟩

/-- Writes a file, in place of the one that is there. -/
def write (d : Directory) (path text : String) : Except FileFault Directory := do
  match ← d.target path with
  | .directory => .error .isDirectory
  | .entry p name slash =>
    if slash then .error .isDirectory
    else if maxNameBytes < name.utf8ByteSize then .error .nameTooLong
    else
      match p with
      | .above => .ok d
      | .inside way =>
        if d.isDirectory (way ++ [name]) then .error .isDirectory
        else .ok (d.put (way ++ [name]) text)

/-- The files that are not in an earlier directory with the same text. -/
def changes (before after : Directory) : List (String × String) :=
  (after.files.filter fun (way, text) => before.files.lookup way ≠ some text).map
    fun (way, text) => ("/".intercalate way, text)

end Directory

end ConfigBinder.CommandLine
