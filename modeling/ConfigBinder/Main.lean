/-
The program.
-/
import ConfigBinder.CommandLine.Command

namespace ConfigBinder.CommandLine

/-- The reason that the system gives for a failure. -/
def systemReason (e : IO.Error) : String :=
  match e with
  | .noFileOrDirectory _ code details => s!"{details} (os error {code})"
  | .inappropriateType _ code details => s!"{details} (os error {code})"
  | .permissionDenied _ code details => s!"{details} (os error {code})"
  | e => toString e

/-- The files of the system. -/
def systemFiles : FileAccess IO where
  read path := do
    try
      return .ok (← IO.FS.readFile path)
    catch e =>
      return .error (systemReason e)
  write path text := do
    try
      IO.FS.writeFile path text
      return .ok ()
    catch e =>
      return .error (systemReason e)

end ConfigBinder.CommandLine

open ConfigBinder ConfigBinder.CommandLine in
/-- Runs the program on the system's files and environment. -/
def main (arguments : List String) : IO UInt32 := do
  let present ← Setting.all.filterMapM fun x => do
    return (← IO.getEnv x.envName).map (x.envName, ·)
  let outcome ← run systemFiles (present.lookup ·) arguments
  IO.print outcome.output
  match outcome.report with
  | some report => IO.eprintln s!"Error: {report.text}"
  | none => pure ()
  return outcome.exitCode.toUInt32
