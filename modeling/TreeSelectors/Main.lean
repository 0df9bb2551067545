import TreeSelectors.CommandLine.Run

/-!
# The program

Reads the one file that a command may need, runs the command and writes what
it leaves behind.
-/

open TreeSelectors

/-- The contents of the file that the arguments ask for. -/
def readNeeded (arguments : List String) : IO (Except String String) := do
  match CommandLine.neededFile? arguments with
  | none =>
      return .error "no file"
  | some path =>
      try
        let content ← IO.FS.readFile path
        return .ok content
      catch
        | .noFileOrDirectory _ _ _ => return .error "No such file or directory (os error 2)"
        | error => return .error (toString error)

/-- Runs the program with its arguments. -/
def main (arguments : List String) : IO UInt32 := do
  let content ← readNeeded arguments
  let outcome := CommandLine.run (fun _ => content) arguments
  (← IO.getStdout).putStr outcome.stdout
  (← IO.getStderr).putStr outcome.stderr
  return outcome.exit.toUInt32
