import DdlOrder.CommandLine

/-!
# The program

Reads arguments, environment, standard input and files, runs the command, and
writes what it gives. No program is run, so a statement without a dump cannot be
explained.
-/

namespace DdlOrder

/-- The reason that the system gives for a failure. -/
def systemReason : IO.Error → String
  | .noFileOrDirectory _ code details | .inappropriateType (some _) code details
  | .permissionDenied (some _) code details => details ++ s!" (os error {code})"
  | e => toString e

/-- Everything on the stream. -/
partial def readAll (stream : IO.FS.Stream) (read : String) : IO String := do
  let line ← stream.getLine
  if line.isEmpty then return read else readAll stream (read ++ line)

/-- The path that a command reads. -/
def inputPath : Command → Option String
  | .listPasses => none
  | .runPass _ input _ | .order input _ _ _ => some input

/-- Reads the file at a path. -/
def readPath (path : String) : IO (Except String String) := do
  try
    return .ok (← IO.FS.readFile path)
  catch e => return .error (systemReason e)

/-- Runs a command and gives the code to end with. -/
def runCommand (c : Command) : IO UInt32 := do
  let path := (inputPath c).getD "/dev/null"
  let stdin ← if path = "-" then readAll (← IO.getStdin) "" else pure ""
  let text ← if path = "-" then pure (.ok stdin) else readPath path
  let host := { Host.bare with read := fun _ => text }
  let outcome := c.run host stdin
  let outcome ←
    match outcome.file with
    | none => pure outcome
    | some (path, text) =>
      try
        IO.FS.writeFile path text
        pure outcome
      catch e => pure (Outcome.ofError (.io (systemReason e)))
  (← IO.getStdout).putStr outcome.stdout
  (← IO.getStderr).putStr outcome.stderr
  return outcome.code.toUInt32

end DdlOrder

/-- Runs the command that the arguments ask for. -/
def main (args : List String) : IO UInt32 := do
  match DdlOrder.Command.ofArgs? (← IO.getEnv "CHORDER_EXPLAIN_PROGRAM") args with
  | some c => DdlOrder.runCommand c
  | none =>
    (← IO.getStderr).putStr "error: arguments not understood\n"
    return 2
