import Rehearsal.Command.Run

/-!
# The program

Runs client commands against a service of its own in simulated time.  Commands that are separated
by the argument `;` run one after another; the exit code is that of the first that fails.
-/

open Rehearsal Command

/-- Prints one report and gives its exit code. -/
def printReport : Except Stop Report → IO Nat
  | .error .version => do
      IO.println versionLine
      return Stop.version.exitCode
  | .error stop => return stop.exitCode
  | .ok report => do
      report.lines.forM IO.println
      match report.exit with
      | .failed error => IO.eprintln s!"Error: {error.code.name}: {error.message}"
      | .overflow => IO.eprintln "Error: no such completion time"
      | .unanswered => IO.eprintln "Error: no answer"
      | .success => pure ()
      return report.exit.code

def main (arguments : List String) : IO UInt32 := do
  let reports := runAll (Rpc.Timeline.start default dawn) (arguments.splitOn ";")
  let codes ← reports.mapM printReport
  return ((codes.find? (· != 0)).getD 0).toUInt32
