import DdlOrder.Source
import DdlOrder.Text.Basic

/-!
# Hosts

What the command line needs of the system it runs on: the text of input files,
whether an output file can be written, and programs that explain statements. The bare
host has none of this to offer, and what runs on a system puts there what it has.

* `Host.explain_eq_error`: a program that cannot be run explains nothing.
-/

namespace DdlOrder

/-- What a program that has ended leaves behind. -/
structure Exit where
  status : Nat := 0
  stdout : String := ""
  stderr : String := ""
  deriving DecidableEq, Repr

/-- A system to run on. Where it refuses, it gives the reason. -/
structure Host where
  /-- The text of the file at a path. -/
  read : String → Except String String
  /-- Why the file at a path cannot be written, if it cannot. -/
  refusal? : String → Option String
  /-- What the program of a name does with its arguments. -/
  program : String → Except String (List String → Exit)

/-- The program that explains statements where none is named. -/
def defaultExplainProgram : String := "clickhouse-local"

namespace Host

/-- The arguments with which a program is asked to explain. The dump comes as
plain text, one line for each row. -/
def explainArguments (request : String) : List String :=
  ["--output-format", "TSVRaw", "--query", request]

/-- Runs a program. No name and no argument can hold a NUL. -/
def runProgram (host : Host) (program : String) (arguments : List String) :
    Except String Exit :=
  if (program :: arguments).any fun word => word.toList.contains '\x00' then
    .error "nul byte found in provided data"
  else (host.program program).map fun run => run arguments

/-- Has a program explain a statement. -/
def explain (host : Host) (program request : String) : Except String (List String) :=
  match host.runProgram program (explainArguments request) with
  | .error reason => .error s!"failed to run '{program}': {reason}"
  | .ok exit =>
    if exit.status = 0 then .ok (textLines exit.stdout)
    else
      .error (s!"'{program}' exited with exit status: " ++ toString exit.status ++ ": " ++
        trimBlank exit.stderr)

theorem explain_eq_error {host : Host} {program request reason : String}
    (h : host.runProgram program (explainArguments request) = .error reason) :
    host.explain program request = .error s!"failed to run '{program}': {reason}" := by
  simp [explain, h]

/-- A host without files to read and without programs, on which any file can be written. -/
def bare : Host where
  read _ := .error "no file can be read"
  refusal? _ := none
  program _ := .error "no program can be run"

end Host

end DdlOrder
