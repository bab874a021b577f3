import ShaderGraph.CommandLine.Run

/-!
# Program

Runs the command line on the files of the computer. The events of the run go to the standard
error output: warnings and errors, or all of them if the user asks for verbose output.
-/

namespace ShaderGraph.CommandLine

/-- The files of the computer. -/
instance : FileAccess IO where
  read path := tryCatch (.ok <$> IO.FS.readFile path) fun e => return .error (toString e)
  write path text :=
    tryCatch (.ok <$> IO.FS.writeFile path text) fun e => return .error (toString e)

/-- Prints the events of a run and its failure. -/
def report (verbose : Bool) (o : Outcome) : IO Unit := do
  for e in o.log do
    if verbose || e.level == .warn || e.level == .error then
      IO.eprintln s!"[{e.level.name}] {e.message}"
  match o.failure? with
  | none => return
  | some failure =>
    IO.eprintln s!"error: {failure.message}"
    if let .misuse _ := failure then
      IO.eprintln s!"\n{usage}\n\nFor more information, try '--help'."

end ShaderGraph.CommandLine

/-- Runs the program with the given words. -/
def main (words : List String) : IO UInt32 := do
  let outcome ← ShaderGraph.CommandLine.run words
  let verbose := match ShaderGraph.CommandLine.Arguments.parse words with
    | .ok arguments => arguments.verbose
    | .error _ => false
  ShaderGraph.CommandLine.report verbose outcome
  IO.print outcome.stdout
  return UInt32.ofNat outcome.exitCode
