import DdlOrder.Error
import DdlOrder.Kdl.Reader

/-!
# Batches

A batch lists statements, each with the lines of its dump, if it carries one.
Ordered batches and the dependencies among statements are printed as documents,
one `statement` node for each statement.

A batch document that is read has one `statement` node for each statement, with the
text as its only value and one `line` child for each line of its dump. What the
children of a `line` node say does not matter.

* `Batch.print_cons`: each statement is printed on its own;
* `Batch.ofDocument_nil`: the empty document is the empty batch.
-/

namespace DdlOrder

/-- A statement of a batch with the dump lines it carries. -/
structure Batch.Entry where
  query : String
  lines : List String := []
  deriving DecidableEq, Repr

/-- The statements of a batch, in input order. -/
abbrev Batch := List Batch.Entry

namespace Batch

/-! ## Printing -/

/-- The line for a statement. -/
def statementLine (query : String) : String := "statement " ++ stringLiteral query

/-- The document that lists the statements with these texts. -/
def print (queries : List String) : String := unlines (queries.map statementLine)

theorem print_cons (query : String) (queries : List String) :
    print (query :: queries) = statementLine query ++ "\n" ++ print queries := by
  simp [print, unlines_cons]

/-- The line for a statement that another one has to run after. -/
def afterLine (query : String) : String := "  after " ++ stringLiteral query

/-- The lines for a statement and the statements it has to run after, which are
given by position. Positions without a statement are left out. -/
def dependencyLines (queries : List String) (query : String) (parents : List Nat) :
    List String :=
  if parents.isEmpty then [statementLine query]
  else
    (statementLine query ++ " \x7b") ::
      (parents.filterMap (queries[·]?)).map afterLine ++ ["\x7d"]

/-- The document that lists, for each statement, those it has to run after. A
statement without a list of its own has none. -/
def printDependencies (queries : List String) (parents : List (List Nat)) : String :=
  unlines (queries.zipIdx.flatMap fun q => dependencyLines queries q.1 (parents[q.2]?.getD []))

/-! ## Reading -/

/-- The positional value of a node, if it is the only one and a string. -/
def onlyText (kind : String) (node : Kdl.Node) : Except DocumentFault String :=
  match node.entries.filterMap Kdl.Entry.argument? with
  | [.text s] => .ok s
  | [_] => .error (.valueNotString kind)
  | _ => .error (.valueCount kind)

/-- Refuses a node that has a property. -/
def noProperties (kind : String) (node : Kdl.Node) : Except DocumentFault Unit :=
  match node.entries.filterMap Kdl.Entry.name? with
  | [] => .ok ()
  | name :: _ => .error (.property kind name)

/-- The dump line that a child of a statement holds. -/
def lineOfNode (node : Kdl.Node) : Except DocumentFault String := do
  if node.name ≠ "line" then throw (.unknownChild node.name)
  noProperties "line" node
  onlyText "line" node

/-- The statement that a root node holds. -/
def entryOfNode (node : Kdl.Node) : Except DocumentFault Entry := do
  if node.name ≠ "statement" then throw (.unknownRoot node.name)
  let query ← onlyText "statement" node
  noProperties "statement" node
  let lines ← node.children.mapM lineOfNode
  return { query, lines }

/-- The batch that a document holds, or the fault of the first node at fault. -/
def ofDocument (document : Kdl.Document) : Except DocumentFault Batch :=
  document.mapM entryOfNode

theorem ofDocument_nil : ofDocument [] = .ok [] := rfl

/-- The batch that a text writes. -/
def parse (text : String) : Except Error Batch :=
  match Kdl.Document.parse? text.toList with
  | none => .error (.document .notKdl)
  | some document =>
    match ofDocument document with
    | .ok batch => .ok batch
    | .error fault => .error (.document fault)

end Batch

end DdlOrder
