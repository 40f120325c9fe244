import SetterReport.Listing
import SetterReport.Program

/-!
# The command line program

Reports on the files that are listed on standard input. The report goes to
standard output; the log and the message of a failure go to standard error.
-/

open SetterReport

/-- The environment variables that matter. -/
def readEnvironment : IO CommandLine.Environment := do
  let lookUp (name : Text) : IO (Option Text) := do
    return (← IO.getEnv (String.ofList name)).map String.toList
  return ⟨← lookUp Marker.environmentName, ← lookUp CommandLine.failOnEmptyVariable⟩

/-- All of standard input. -/
partial def readAll (input : IO.FS.Stream) (read : String) : IO String := do
  let line ← input.getLine
  if line.isEmpty then return read else readAll input (read ++ line)

/-- Runs the program on its arguments. -/
def main (arguments : List String) : IO UInt32 := do
  let environment ← readEnvironment
  let listing ← readAll (← IO.getStdin) ""
  let outcome := Program.run (Listing.read listing.toList) environment (arguments.map String.toList)
  (← IO.getStdout).putStr (String.ofList outcome.output)
  for line in outcome.log do
    IO.eprintln (String.ofList line.render)
  match outcome.failure with
  | some failure => IO.eprintln (String.ofList ("Error: ".toList ++ failure.message))
  | none => pure ()
  return outcome.exit.toUInt32
