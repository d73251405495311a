import DdlOrder.Host.Bare
import DdlOrder.Pass

/-!
# The command line

Three commands: list the passes, run one of them over a batch document, or order
a batch and fetch the dumps it lacks. Options are written as `--name value` or
`--name=value`; a lone dash stands for standard input or output.

* `Command.ofArgs?_nil`: a command has to be named;
* `Command.run_unknownPass`: the pass is looked up before anything is read.
-/

namespace DdlOrder

/-- What the command line asks for. -/
inductive Command where
  | listPasses
  | runPass (pass input output : String)
  | order (input output program : String) (matching : Matching)
  deriving DecidableEq, Repr

/-- What a run prints and writes, and the code with which it ends. -/
structure Outcome where
  code : Nat := 0
  stdout : String := ""
  stderr : String := ""
  /-- The path and the text of the file written. -/
  file : Option (String × String) := none
  deriving DecidableEq, Repr

/-- The outcome of a run that failed. -/
def Outcome.ofError (e : Error) : Outcome where
  code := 1
  stderr := "error: " ++ e.message ++ "\n"

/-! ## Arguments -/

/-- Arguments sorted into options, by name, and the others. -/
structure Arguments where
  options : List (String × String) := []
  others : List String := []
  deriving DecidableEq, Repr

namespace Arguments

/-- Whether the argument would be taken for an option: a dash and more. -/
def isOption (argument : String) : Bool :=
  match argument.toList with
  | '-' :: _ :: _ => true
  | _ => false

/-- The name of an option and the value behind its equals sign, if it has one. -/
def splitOption (argument : String) : String × Option String :=
  let name := argument.toList.takeWhile (· != '=')
  let value := (argument.toList.dropWhile (· != '=')).tail?
  (String.ofList name, value.map String.ofList)

/-- Adds an option, which may be given only once. -/
def addOption? (a : Arguments) (known : List String) (name value : String) :
    Option Arguments :=
  if known.contains name && !(a.options.any fun option => option.1 == name) then
    some { a with options := a.options ++ [(name, value)] }
  else none

/-- Sorts arguments. An option without an equals sign takes the next argument,
unless that one is an option itself. Behind a double dash there are no options. -/
def scan? (known : List String) (a : Arguments) : List String → Option Arguments
  | [] => some a
  | argument :: rest =>
    if argument = "--" then some { a with others := a.others ++ rest }
    else if isOption argument then
      match splitOption argument, rest with
      | (name, some value), rest => (a.addOption? known name value).bind fun a => a.scan? known rest
      | (name, none), value :: rest =>
        if isOption value then none
        else (a.addOption? known name value).bind fun a => a.scan? known rest
      | (_, none), [] => none
    else scan? known { a with others := a.others ++ [argument] } rest

/-- The value of an option. -/
def value? (a : Arguments) (name : String) : Option String :=
  (a.options.find? fun option => option.1 == name).map (·.2)

/-- The value of an option that names a path, which cannot be empty. -/
def path? (a : Arguments) (name : String) : Option String :=
  (a.value? name).filter fun path => !path.isEmpty

end Arguments

namespace Command

/-- The command that the arguments behind `list-passes` ask for. -/
def listPassesOfArgs? (args : List String) : Option Command := do
  let a ← Arguments.scan? [] {} args
  if a.others.isEmpty then return .listPasses else none

/-- The command that the arguments behind `run-pass` ask for. -/
def runPassOfArgs? (args : List String) : Option Command := do
  let a ← Arguments.scan? ["--in", "--out"] {} args
  match a.others with
  | [pass] => return .runPass pass (← a.path? "--in") (← a.path? "--out")
  | _ => none

/-- The command that the arguments behind `order` ask for. The explain program is
the one in the arguments, else the one in the environment, else the default. -/
def orderOfArgs? (environment : Option String) (args : List String) : Option Command := do
  let a ← Arguments.scan? ["--in", "--out", "--explain-program", "--column-matching"] {} args
  let output ← if (a.value? "--out").isSome then a.path? "--out" else some "-"
  let matching ←
    match a.value? "--column-matching" with
    | some word => Matching.ofWord? word
    | none => some .default
  let program := ((a.value? "--explain-program").or environment).getD defaultExplainProgram
  if a.others.isEmpty then return .order (← a.path? "--in") output program matching else none

/-- The command that the arguments ask for, unless they are not understood. -/
def ofArgs? (environment : Option String) : List String → Option Command
  | "list-passes" :: args => listPassesOfArgs? args
  | "run-pass" :: args => runPassOfArgs? args
  | "order" :: args => orderOfArgs? environment args
  | _ => none

theorem ofArgs?_nil (environment : Option String) : ofArgs? environment [] = none := rfl

/-! ## Running a command -/

/-- The text at a path, or standard input for a lone dash. -/
def readInput (host : Host) (stdin path : String) : Except Error String :=
  if path = "-" then .ok stdin
  else match host.read path with
    | .ok text => .ok text
    | .error reason => .error (.io reason)

/-- Writes a text to a path, or to standard output for a lone dash. -/
def deliver (host : Host) (path text : String) : Except Error Outcome :=
  if path = "-" then .ok { stdout := text }
  else match host.refusal? path with
    | some reason => .error (.io reason)
    | none => .ok { file := some (path, text) }

/-- What a command does, unless it fails. -/
def perform (host : Host) (stdin : String) : Command → Except Error Outcome
  | .listPasses =>
    .ok { stdout := unlines (Pass.all.map fun pass => pass.name ++ "\t" ++ pass.help) }
  | .runPass name input output =>
    match Pass.find? name with
    | none => .error (.unknownPass name)
    | some pass => do
      let text ← readInput host stdin input
      deliver host output (← pass.run text)
  | .order input output program matching => do
    let batch ← Batch.parse (← readInput host stdin input)
    let source := Source.ofFunction (host.explain program)
    let texts ← (orderBatch source matching batch).result
    deliver host output (Batch.print texts)

/-- Runs a command. -/
def run (host : Host) (stdin : String) (c : Command) : Outcome :=
  match perform host stdin c with
  | .ok outcome => outcome
  | .error e => .ofError e

theorem run_unknownPass {name : String} (h : Pass.find? name = none) (host : Host)
    (stdin input output : String) :
    run host stdin (.runPass name input output) = .ofError (.unknownPass name) := by
  simp [run, perform, h]

end Command

end DdlOrder
