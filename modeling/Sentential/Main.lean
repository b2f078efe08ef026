import Sentential.CommandLine.Report
import Sentential.Library.Frames
import Sentential.Library.Random
/-!
# The command

Runs the command on its arguments and passes on what it prints and its status.
-/

def main (arguments : List String) : IO UInt32 := do
  let report := Sentential.CommandLine.run .standard .standard arguments
  IO.print report.output
  IO.eprint report.errors
  return UInt32.ofNat report.status
