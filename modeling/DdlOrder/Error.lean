import DdlOrder.Text.Escape

/-!
# What can go wrong

The causes for which a batch cannot be read, parsed or ordered, each with the
data its message names. `Error.message` words a cause; `Error.report` also names
the failure of the operating system that lies behind it, if there is one.

* `Error.report_eq_message`: only a failure of the operating system has a
  further cause to name.
-/

namespace DdlOrder

/-- Why a document is no batch. The node kind named is `statement` or `line`. -/
inductive DocumentFault where
  /-- The text is not a KDL document. -/
  | notKdl
  /-- A root node has a name other than `statement`. -/
  | unknownRoot (name : String)
  /-- A child of a statement has a name other than `line`. -/
  | unknownChild (name : String)
  /-- A node has no positional value, or more than one. -/
  | valueCount (kind : String)
  /-- The positional value of a node is no string. -/
  | valueNotString (kind : String)
  /-- A node has a property. -/
  | property (kind name : String)
  deriving DecidableEq, Repr

/-- What a document fault says. -/
def DocumentFault.reason : DocumentFault → String
  | .notKdl => "Failed to parse KDL document"
  | .unknownRoot name => s!"unknown root node '{name}', expected 'statement'"
  | .unknownChild name => s!"unknown node '{name}' in statement, expected 'line'"
  | .valueCount kind => s!"'{kind}' node must have exactly one string value"
  | .valueNotString kind => s!"'{kind}' node value must be a string"
  | .property kind name => s!"'{kind}' node does not support property '{name}'"

/-- The cause of a failure. -/
inductive Error where
  /-- The input is no batch document. -/
  | document (fault : DocumentFault)
  /-- The operating system refused to read or write. -/
  | io (reason : String)
  /-- A dump was asked for a statement without text. -/
  | blankQuery
  /-- No way of matching columns has this name. -/
  | unknownMatching (name : String)
  /-- No pass has this name. -/
  | unknownPass (name : String)
  /-- The explain source could not answer. -/
  | fetch (reason : String)
  /-- A dump line has none of the known shapes. -/
  | unrecognizedLine (line : String)
  /-- A dump line is indented more than one level below the line before it. -/
  | indentJump (line : String) (levels : Nat)
  /-- No node on the way up from the line before is one level above this line. -/
  | noEnclosingNode (line : String) (indent : Nat)
  /-- A dump holds no node at all. -/
  | emptyDump
  /-- The statements wait for each other; those that could not be placed. -/
  | cycle (remaining : List String)
  deriving DecidableEq, Repr

/-- The kinds under which causes are reported. -/
inductive ErrorKind where
  | document
  | io
  | input
  | fetch
  | line
  | nesting
  | cycle
  deriving DecidableEq, Repr

/-- The kind of a cause. -/
def Error.kind : Error → ErrorKind
  | .document _ => .document
  | .io _ => .io
  | .blankQuery | .unknownMatching _ | .unknownPass _ => .input
  | .fetch _ => .fetch
  | .unrecognizedLine _ => .line
  | .indentJump _ _ | .noEnclosingNode _ _ | .emptyDump => .nesting
  | .cycle _ => .cycle

/-- What a cause says, without the words that name its kind. The indent of a
missing enclosing node is one less than the line's, hence −1 for a second root. -/
def Error.reason : Error → String
  | .document fault => fault.reason
  | .io reason => reason
  | .blankQuery => "query cannot be empty"
  | .unknownMatching name =>
    s!"unknown column matching '{name}', expected 'name' or 'qualified'"
  | .unknownPass name => s!"unknown pass '{name}'"
  | .fetch reason => reason
  | .unrecognizedLine line => quoted line
  | .indentJump line levels =>
    "line " ++ quoted line ++ s!" is indented {levels} levels below its predecessor"
  | .noEnclosingNode line indent =>
    "no enclosing node at indent " ++ toString ((indent : Int) - 1) ++ " for line " ++ quoted line
  | .emptyDump => "dump contains no nodes"
  | .cycle remaining => toString remaining.length ++ " statements"

/-- The message of an error of this kind that says `reason`. -/
def ErrorKind.message (reason : String) : ErrorKind → String
  | .document => "parse error: " ++ reason
  | .io => "io error: " ++ reason
  | .input => "input error: " ++ reason
  | .fetch => "fetch error: " ++ reason
  | .line => "unrecognized dump line: " ++ reason
  | .nesting => "malformed dump structure: " ++ reason
  | .cycle => "circular dependency detected among " ++ reason

/-- The message, followed by the cause behind it where the error wraps one. -/
def ErrorKind.report (reason : String) : ErrorKind → String
  | .io => ErrorKind.io.message reason ++ "\ncaused by: " ++ reason
  | kind => kind.message reason

/-- The wording of a cause. -/
def Error.message (e : Error) : String := e.kind.message e.reason

/-- The wording of a cause, followed by the cause behind it. -/
def Error.report (e : Error) : String := e.kind.report e.reason

theorem Error.report_eq_message {e : Error} (h : e.kind ≠ .io) : e.report = e.message := by
  unfold Error.report Error.message ErrorKind.report
  split
  · contradiction
  · rfl

end DdlOrder
