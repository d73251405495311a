import DdlOrder.Batch
import DdlOrder.Order
import DdlOrder.Tree.Printer

/-!
# Passes

A pass turns the text of a batch document, in which every statement carries its
dump, into another text. Columns are compared by name.

* `Pass.find?_name`: every pass is found by its name.
-/

namespace DdlOrder

/-- A named transformation of batch documents. -/
structure Pass where
  name : String
  help : String
  run : String → Except Error String

namespace Pass

/-- The statements of a batch document, parsed from the dumps they carry. -/
def statements (input : String) : Except Error (List Statement) := do
  let batch ← Batch.parse input
  batch.mapM fun entry => Statement.ofDump entry.query entry.lines

/-- The lines for a statement with its tree. -/
def treeLines (s : Statement) : List String :=
  (Batch.statementLine s.query ++ " \x7b") :: s.tree.printLines 0 1 ++ ["\x7d"]

/-- Prints the tree of every statement. -/
def printTrees (input : String) : Except Error String :=
  (statements input).map fun ss => unlines (ss.flatMap treeLines)

/-- Prints, for every statement, those it has to run after. -/
def printDependencies (input : String) : Except Error String :=
  (statements input).map fun ss =>
    Batch.printDependencies (ss.map (·.query))
      ((Graph.ofStatements .default ss).parents.toList.map (·.map Fin.val))

/-- Prints the statements in order. -/
def printOrder (input : String) : Except Error String := do
  let ss ← statements input
  (orderTexts .default ss).map Batch.print

/-- All passes, in the order in which they are listed. -/
def all : List Pass :=
  [{ name := "parse-dump", help := "Parse explain-ast dumps into node trees", run := printTrees },
    { name := "dependencies", help := "List the statements each statement must run after",
      run := printDependencies },
    { name := "order", help := "Order statements so dependencies run first", run := printOrder }]

/-- The pass with this name. -/
def find? (name : String) : Option Pass := all.find? fun pass => pass.name == name

theorem find?_name {pass : Pass} (h : pass ∈ all) : find? pass.name = some pass := by
  simp only [all, List.mem_cons, List.not_mem_nil, or_false] at h
  rcases h with rfl | rfl | rfl <;> simp [find?, all]

end Pass

end DdlOrder
