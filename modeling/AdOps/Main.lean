import AdOps.Cli.Program
import Std.Time

/-!
# The program

Connects the command line program to the terminal, the file system, the environment and the clock.
-/

namespace AdOps

def unreadable (e : IO.Error) : String :=
  match e with
  | .noFileOrDirectory .. => "No such file or directory (os error 2)"
  | .permissionDenied .. => "Permission denied (os error 13)"
  | e => toString e

/-- The surroundings of a program that was started at the given time. -/
def world (started : Nat) : Cli.World IO where
  stdin := do (← IO.getStdin).readToEnd
  fileText path := do
    try return .ok (← IO.FS.readFile path)
    catch e => return .error (unreadable e)
  settingsFile := IO.getEnv "ADSBOT_CONFIG"
  today := do
    let now ← Std.Time.PlainDate.now
    return ((Date.ofDay? now.toEpochDay.val).getD ⟨0, by decide⟩)
  elapsed := do
    let now ← IO.monoNanosNow
    return toString ((now - started) / 1000) ++ "µs"

end AdOps

def main (words : List String) : IO UInt32 := do
  let started ← IO.monoNanosNow
  let exit ← AdOps.Cli.program (AdOps.world started) (← (← IO.getStdout).isTty) words
  IO.print exit.stdout
  IO.eprint exit.stderr
  return exit.code.toUInt32
