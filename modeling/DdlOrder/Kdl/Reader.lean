import DdlOrder.Kdl.Token

/-!
# Reading KDL documents

The tokens of a document are tidied first: continued lines are joined, gaps that
separate nothing are dropped, and a type in parentheses becomes a mark on the
value behind it. Then the nodes are read in one pass, with the nodes whose
children are being read on a stack.

A node ends at a line end or a semicolon. The last node of a block may do
without, and then only nodes that are commented out may follow it. A node that is
commented out needs no end, and no semicolon may end it. A slashdash before one
that comments out an entry comments out the entry behind that one as well.

These are rules of the reader. In version 2 of the language a node that is commented
out ends as any other does, and no slashdash follows another. A block that is commented
out has white space before it here, unless it is right behind the children of its node.

* `Kdl.read_nil`: nothing is left open at the end of a document.
-/

namespace DdlOrder.Kdl

/-! ## Tidying tokens -/

/-- Joins continued lines: a backslash and the line end behind it, or the end of
the document, become a gap. `pending` says that a backslash has been read. -/
def joinLines? (pending : Bool) : List Token → Option (List Token)
  | [] => some (if pending then [.gap] else [])
  | t :: ts =>
    if pending then
      match t with
      | .gap => joinLines? true ts
      | .lineEnd => (joinLines? false ts).map (.gap :: ·)
      | _ => none
    else
      match t with
      | .continuation => joinLines? true ts
      | t => (joinLines? false ts).map (t :: ·)

/-- The tokens without a gap at their beginning. -/
def dropGap : List Token → List Token
  | .gap :: ts => ts
  | ts => ts

/-- Whether the token may stand between nodes. -/
def isLineSpace (t : Token) : Bool := t == .gap || t == .lineEnd

/-- Puts a token before tidy ones. A gap is dropped before another one and around
an equals sign, and lines may end after a slashdash. Parentheses hold a string,
and a value has to follow them. -/
def tidyToken? (t : Token) (ts : List Token) : Option (List Token) :=
  match t with
  | .gap =>
    match ts with
    | .gap :: _ | .equals :: _ => some ts
    | _ => some (.gap :: ts)
  | .equals => some (.equals :: dropGap ts)
  | .slashdash => some (.slashdash :: ts.dropWhile isLineSpace)
  | .openParen =>
    match dropGap ts with
    | .value false (.text _) :: ts =>
      match dropGap ts with
      | .closeParen :: ts =>
        match dropGap ts with
        | .value false v :: ts => some (.value true v :: ts)
        | _ => none
      | _ => none
    | _ => none
  | t => some (t :: ts)

/-- Tidies tokens from the last to the first. -/
def tidy? (ts : List Token) : Option (List Token) :=
  ts.foldr (fun t tidied => tidied.bind (tidyToken? t)) (some [])

/-! ## Reading nodes -/

/-- How far a node has been read. -/
inductive Stage where
  /-- Entries may follow. -/
  | entries
  /-- A block that is commented out has been read, and other blocks may follow. -/
  | blocks
  /-- The children have been read, and only blocks that are commented out may
  follow. -/
  | children
  deriving DecidableEq, Repr

/-- A node that is being read. -/
structure Partial where
  name : String
  /-- Whether the node is part of the document, and not commented out. -/
  kept : Bool
  /-- Whether another node may begin right behind this one. -/
  ready : Bool
  entries : List Entry := []
  children : List Node := []
  stage : Stage := .entries
  /-- Whether an entry or a block that is commented out may begin here: there is a
  gap, a slashdash or the block of children before it. -/
  gap : Bool := false
  /-- How many of the entries to come are commented out. -/
  owed : Nat := 0

namespace Partial

/-- Whether an entry may stand here. -/
def takesEntry (p : Partial) : Bool := p.stage == .entries && p.gap

/-- The node with one more entry, unless that one is commented out. -/
def addEntry (p : Partial) (e : Entry) : Partial :=
  if p.owed = 0 then { p with entries := p.entries ++ [e], gap := false }
  else { p with owed := p.owed - 1, gap := false }

/-- The node after its children have been read. -/
def addChildren (p : Partial) (nodes : List Node) : Partial :=
  { p with children := nodes, stage := .children, gap := true }

/-- The node after a block that is commented out. -/
def skipBlock (p : Partial) : Partial :=
  { p with stage := if p.stage = .entries then .blocks else p.stage, gap := false }

/-- The nodes with this one behind them, if it is part of the document. There must
be no entry left to be commented out. -/
def finish? (p : Partial) (done : List Node) : Option (List Node) :=
  if p.owed ≠ 0 then none
  else if p.kept then some (done ++ [.mk p.name p.entries p.children])
  else some done

end Partial

/-- A node of which a block is being read, and what surrounds it. -/
structure Level where
  node : Partial
  /-- Whether the block is part of the document. -/
  kept : Bool
  /-- The nodes before this one in its own block. -/
  before : List Node

/-- The node of a level after these nodes of its block have been read. -/
def Level.close (level : Level) (nodes : List Node) : Partial :=
  if level.kept then level.node.addChildren nodes else level.node.skipBlock

/-- Where reading stands. -/
inductive Place where
  /-- Between nodes; `ready` says whether a node may begin. A node that is commented
  out may begin anyway. -/
  | between (ready : Bool)
  /-- Behind a slashdash that comments out the next node. -/
  | commented (ready : Bool)
  /-- Within a node. -/
  | within (node : Partial)

/-- Reads tidy tokens. The stack holds the nodes of which a block is being read,
the innermost first, and `done` the nodes of the current block that are done. -/
def read (stack : List Level) (done : List Node) : Place → List Token → Option (List Node)
  | .between _, [] => if stack.isEmpty then some done else none
  | .between ready, .gap :: ts => read stack done (.between ready) ts
  | .between ready, .lineEnd :: ts => read stack done (.between ready) ts
  | .between ready, .slashdash :: ts => read stack done (.commented ready) ts
  | .between true, .value _ (.text name) :: ts =>
    read stack done (.within { name, kept := true, ready := false }) ts
  | .between _, .closeBrace :: ts =>
    match stack with
    | level :: stack => read stack level.before (.within (level.close done)) ts
    | [] => none
  | .commented ready, .value _ (.text name) :: ts =>
    read stack done (.within { name, kept := false, ready }) ts
  | .within node, [] => if stack.isEmpty then node.finish? done else none
  | .within node, .gap :: ts => read stack done (.within { node with gap := true }) ts
  | .within node, .lineEnd :: ts =>
    (node.finish? done).bind fun done => read stack done (.between (node.kept || node.ready)) ts
  | .within node, .semicolon :: ts =>
    if node.kept then
      (node.finish? done).bind fun done => read stack done (.between true) ts
    else none
  | .within node, .closeBrace :: ts =>
    match stack with
    | level :: stack =>
      (node.finish? done).bind fun done => read stack level.before (.within (level.close done)) ts
    | [] => none
  | .within node, .openBrace :: ts =>
    if node.stage = .children ∨ node.owed ≠ 0 then none
    else read ({ node, kept := true, before := done } :: stack) [] (.between true) ts
  | .within node, .slashdash :: .openBrace :: ts =>
    if node.gap ∧ node.owed = 0 then
      read ({ node, kept := false, before := done } :: stack) [] (.between true) ts
    else none
  | .within node, .slashdash :: ts =>
    if node.takesEntry then read stack done (.within { node with owed := node.owed + 1 }) ts
    else (node.finish? done).bind fun done => read stack done (.commented node.ready) ts
  | .within node, .value false (.text key) :: .equals :: .value _ v :: ts =>
    if node.takesEntry then read stack done (.within (node.addEntry (.property key v))) ts
    else none
  | .within node, .value _ v :: ts =>
    if node.takesEntry then read stack done (.within (node.addEntry (.argument v))) ts
    else
      match node.ready, v with
      | true, .text name =>
        (node.finish? done).bind fun done =>
          read stack done (.within { name, kept := true, ready := false }) ts
      | _, _ => none
  | _, _ => none

theorem read_nil (stack : List Level) (done : List Node) (ready : Bool) :
    read stack done (.between ready) [] = if stack.isEmpty then some done else none := by
  rw [read]

/-- The text without a byte order mark at its beginning. -/
def dropMark : List Char → List Char
  | '\ufeff' :: s => s
  | s => s

/-- The document that a text writes. -/
def Document.parse? (text : List Char) : Option Document :=
  (Token.all? (dropMark text)).bind fun tokens =>
    (joinLines? false tokens).bind fun tokens =>
      (tidy? tokens).bind fun tokens => read [] [] (.between true) tokens

end DdlOrder.Kdl
