import BaseThree.CommandLine

/-! The program: reads a line if it needs one, runs, writes both streams. -/

def main (arguments : List String) : IO UInt32 := do
  let stdin ← IO.getStdin
  let stderr ← IO.getStderr
  let line ← if BaseThree.CommandLine.readsLine arguments then stdin.getLine else pure ""
  match BaseThree.CommandLine.run arguments line with
  | .error breakdown =>
    stderr.putStrLn breakdown.message
    return 1
  | .ok report =>
    (← IO.getStdout).putStr report.stdout
    stderr.putStr report.stderr
    for _ in [0:report.unwritten] do
      stderr.putStrLn "A line of the log has an integer that is too long to be written."
    return report.status.toUInt32
