import DdlOrder.Line
import DdlOrder.Text.Basic
import DdlOrder.Tree.Basic
import DdlOrder.ViewTarget

/-!
# The tree of a dump

The lines of a dump list a statement's nodes in document order, each indented
one space more than its parent. Blank lines and the line that repeats the
statement are left out. Below a CREATE node the tree also shows the table that a
materialized view fills, which only the statement's text names.

* `Tree.isKept_iff`: a line is kept if something on it is not white space and it does
  not begin as the line that repeats the statement does;
* `Tree.Growing.size_add`: adding a line adds its node, and for a CREATE node
  two more when the statement names such a table;
* `Tree.ofDump_nil`: a dump without lines has no tree.
-/

namespace DdlOrder

namespace Tree

/-- What the line that repeats the statement begins with. -/
def preamble : String := "Explain EXPLAIN AST "

/-- Whether the line describes a node. -/
def isKept (line : String) : Bool :=
  !isBlank line && !preamble.toList.isPrefixOf line.toList

theorem isKept_iff {line : String} :
    isKept line = true ↔
      (∃ c ∈ line.toList, isBlankChar c = false) ∧ ∀ rest, line ≠ preamble ++ rest := by
  have hpreamble : preamble.toList <+: line.toList ↔ ∃ rest, line = preamble ++ rest := by
    constructor
    · rintro ⟨rest, h⟩
      exact ⟨String.ofList rest, String.toList_inj.1 (by rw [String.toList_append, ← h,
        String.toList_ofList])⟩
    · rintro ⟨rest, rfl⟩
      exact ⟨rest.toList, String.toList_append.symm⟩
  simp [isKept, isBlank, ← Bool.not_eq_true, hpreamble]

/-- The lines that describe nodes. -/
def keptLines (lines : List String) : List String := lines.filter isKept

/-- A tree that is being read, and the node of the line read last. -/
structure Growing where
  tree : Tree
  last : Nat
  last_lt : last < tree.size

namespace Growing

/-- The node that a new node belongs under: the last one if the new node is one
level deeper, else the nearest node above the last one that is one level up. -/
def parentFor (g : Growing) (n : Node) : Except Error (Fin g.tree.size) :=
  have := g.last_lt
  let lastIndent := (g.tree.entries[g.last]).node.indent
  if lastIndent < n.indent then
    if n.indent = lastIndent + 1 then .ok ⟨g.last, g.last_lt⟩
    else .error (.indentJump n.raw (n.indent - lastIndent))
  else
    match h : (g.tree.ancestors g.last).find? fun a =>
        (g.tree.node? a).any fun above => above.indent + 1 == n.indent with
    | some a =>
      .ok ⟨a, Nat.lt_trans (lt_of_mem_ancestors (List.mem_of_find?_eq_some h)) g.last_lt⟩
    | none => .error (.noEnclosingNode n.raw n.indent)

/-- The node for the table that a materialized view at this indent fills. -/
def targetNode (indent : Nat) (target : List Char) : Node :=
  let names := Line.splitValue "MaterializedViewToTable".toList target
  { kind := .materializedViewToTable, value := names.2, qualifier := names.1,
    indent := indent + 1 }

/-- The tree with the target table of a materialized view below node `i`, as a
node of its own and, below that, as a table that the statement refers to. -/
def addTarget (t : Tree) (i : Nat) (hi : i < t.size) (indent : Nat) (target : List Char) :
    Tree :=
  let n := targetNode indent target
  (t.addChild i hi n).addChild t.size (by simp)
    { n with kind := .tableIdentifier, indent := indent + 2 }

/-- The tree with the target table below its newest node, when that node creates
something and the statement names a target. -/
def withTarget (target : Option (List Char)) (t : Tree) (i : Nat) (hi : i < t.size) (n : Node) :
    Growing :=
  match target with
  | some target =>
    if n.kind = .createQuery then
      { tree := addTarget t i hi n.indent target, last := i,
        last_lt := by simp [addTarget]; omega }
    else { tree := t, last := i, last_lt := hi }
  | none => { tree := t, last := i, last_lt := hi }

/-- The tree whose root is the node. -/
def start (target : Option (List Char)) (n : Node) : Growing :=
  withTarget target (singleton n) 0 (by simp) n

/-- The tree with one more node. -/
def add (target : Option (List Char)) (g : Growing) (n : Node) : Except Error Growing :=
  match g.parentFor n with
  | .ok p => .ok (withTarget target (g.tree.addChild p p.isLt n) g.tree.size (by simp) n)
  | .error e => .error e

/-- Reads one more line. -/
def readLine (target : Option (List Char)) (g : Option Growing) (line : String) :
    Except Error (Option Growing) := do
  let n ← Line.parse line
  match g with
  | none => return some (start target n)
  | some g => return some (← g.add target n)

/-- How many nodes a line adds. -/
def added (target : Option (List Char)) (n : Node) : Nat :=
  if target.isSome ∧ n.kind = .createQuery then 3 else 1

theorem size_withTarget (target : Option (List Char)) (t : Tree) (i : Nat) (hi : i < t.size)
    (n : Node) : (withTarget target t i hi n).tree.size + 1 = t.size + added target n := by
  unfold withTarget added
  split
  · split <;> simp_all [addTarget]
  · simp

theorem size_add {target : Option (List Char)} {g g' : Growing} {n : Node}
    (h : g.add target n = .ok g') : g'.tree.size = g.tree.size + added target n := by
  unfold add at h
  split at h
  · rename_i p hp
    cases h
    have := size_withTarget target (g.tree.addChild p p.isLt n) g.tree.size (by simp) n
    simp only [size_addChild] at this
    omega
  · cases h

end Growing

/-- The tree that the dump of a statement describes. -/
def ofDump (query : String) (lines : List String) : Except Error Tree := do
  match ← (keptLines lines).foldlM (Growing.readLine (viewTarget? query)) none with
  | some g => return g.tree
  | none => throw .emptyDump

theorem ofDump_nil (query : String) : ofDump query [] = .error .emptyDump := rfl

end Tree

end DdlOrder
