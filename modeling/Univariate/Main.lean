import Univariate.CommandLine.Run

/-!
# The program
-/

def main (args : List String) : IO UInt32 := do
  let outcome := Univariate.CommandLine.run args
  (← IO.getStdout).putStr outcome.output
  (← IO.getStderr).putStr outcome.complaint
  return outcome.exitCode.toUInt32
