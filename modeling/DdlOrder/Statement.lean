import DdlOrder.Column
import DdlOrder.Tree.Dump

/-!
# Statements

A statement is its text and the tree of its dump. The names and columns that it
creates, reads and changes are read off the tree, in document order, each column
with the table that the statement pins it to.

* `Statement.query_ofDump`: a statement keeps its text;
* `Statement.alterColumns_operand`: an altered column is named by a node of the
  kind that the command takes.
-/

namespace DdlOrder

/-- A statement's text and tree. -/
structure Statement where
  query : String
  tree : Tree

namespace Statement

/-- The statement with this text and dump. -/
def ofDump (query : String) (lines : List String) : Except Error Statement :=
  (Tree.ofDump query lines).map fun tree => { query, tree }

theorem query_ofDump {query : String} {lines : List String} {s : Statement}
    (h : ofDump query lines = .ok s) : s.query = query := by
  unfold ofDump at h
  cases ht : Tree.ofDump query lines with
  | error e => rw [ht] at h; cases h
  | ok t => rw [ht] at h; cases h; rfl

/-- The values of the nodes that satisfy `p`, in document order. Nodes without a
value have none to give. -/
def valuesWhere (s : Statement) (p : Nat → Bool) : List String :=
  (s.tree.walk.filter p).filterMap s.tree.value?

/-- The values of the nodes of a kind. -/
def valuesOfKind (s : Statement) (kind : Kind) : List String :=
  s.valuesWhere fun i => s.tree.kind? i == some kind

/-! ## Tables and functions -/

/-- The tables and views that the statement creates. -/
def createdTables (s : Statement) : List String := s.valuesOfKind .createQuery

/-- The functions that the statement creates. -/
def createdFunctions (s : Statement) : List String := s.valuesOfKind .createFunctionQuery

/-- The tables that the statement alters. -/
def alterTargets (s : Statement) : List String := s.valuesOfKind .alterQuery

/-- The functions that the statement calls. -/
def functionCalls (s : Statement) : List String := s.valuesOfKind .function

/-- The names by which the statement refers to tables: each table's name and,
where it has one, its alias. -/
def referencedTables (s : Statement) : List String :=
  s.tree.walk.flatMap fun i =>
    match s.tree.node? i with
    | some n => if n.kind = .tableIdentifier then n.value.toList ++ n.aliasName.toList else []
    | none => []

end Statement

/-! ## Columns -/

namespace Tree

/-- The parent of node `i`, if it is of this kind. -/
def parentOfKind? (t : Tree) (i : Nat) (kind : Kind) : Option Nat :=
  (t.parent? i).filter fun p => t.kind? p == some kind

/-- The CREATE node whose column list declares node `i`: three levels up, past an
expression list and the node that holds the columns. -/
def declaringCreate? (t : Tree) (i : Nat) : Option Nat := do
  let list ← t.parentOfKind? i .expressionList
  let columns ← t.parentOfKind? list .columns
  t.parentOfKind? columns .createQuery

/-- The column operation of the ALTER command right above node `i`. -/
def commandAbove? (t : Tree) (i : Nat) : Option AlterKind :=
  ((t.parentOfKind? i .alterCommand).bind t.value?).bind AlterKind.ofCommand?

/-- The table that the ALTER statement around node `i` changes. -/
def alteredTable? (t : Tree) (i : Nat) : Option String :=
  (t.nearestAncestor? i .alterQuery).bind t.value?

/-- The tables that a SELECT reads itself, not through a nested one: each name
with its alias, in document order. -/
def scope (t : Tree) (select : Nat) : List (String × Option String) :=
  (t.descendants select).filterMap fun i =>
    (t.node? i).bind fun n =>
      if n.kind = .tableIdentifier ∧ t.nearestAncestor? i .selectQuery = some select then
        n.value.map fun table => (table, n.aliasName)
      else none

/-- The table that an identifier in a SELECT belongs to: the first one that the
qualifier names or, without a qualifier, the only one. -/
def selectedTable? (tables : List (String × Option String)) : Option String → Option String
  | some qualifier =>
    (tables.find? fun table => table.1 == qualifier || table.2 == some qualifier).map (·.1)
  | none =>
    match tables with
    | [table] => some table.1
    | _ => none

end Tree

namespace Statement

/-- The columns in the column list of a CREATE statement. -/
def createdColumns (s : Statement) : List ColumnRef :=
  s.tree.walk.filterMap fun i =>
    if s.tree.kind? i = some .columnDeclaration then
      (s.tree.declaringCreate? i).bind fun create =>
        (s.tree.value? i).map (ColumnRef.mk (s.tree.value? create))
    else none

/-- The columns that ALTER commands of a kind name, as far as `keep` holds. -/
def alterColumnsWhere (s : Statement) (kind : AlterKind) (keep : Nat → Bool) : List ColumnRef :=
  s.tree.walk.filterMap fun i =>
    if s.tree.kind? i = some kind.operand ∧ s.tree.commandAbove? i = some kind ∧ keep i then
      (s.tree.value? i).map (ColumnRef.mk (s.tree.alteredTable? i))
    else none

/-- The columns that ALTER commands of a kind name. For a rename these are both
the old and the new name. -/
def alterColumns (s : Statement) (kind : AlterKind) : List ColumnRef :=
  s.alterColumnsWhere kind fun _ => true

/-- The old names in renames: the operands in the first place. -/
def renamedFrom (s : Statement) : List ColumnRef :=
  s.alterColumnsWhere .renameColumn fun i => s.tree.childPosition? i == some 0

/-- The new names in renames: the operands in the second place. -/
def renamedTo (s : Statement) : List ColumnRef :=
  s.alterColumnsWhere .renameColumn fun i => s.tree.childPosition? i == some 1

/-- The column that an identifier in a SELECT names. Identifiers right below the
SELECT and those without a value name none. -/
def selectedColumn? (t : Tree) (i : Nat) : Option ColumnRef := do
  let n ← t.node? i
  if n.kind = .identifier ∧ t.parentIs i .selectQuery = false then
    let select ← t.nearestAncestor? i .selectQuery
    let name ← n.value
    some { table := Tree.selectedTable? (t.scope select) n.qualifier, name }
  else none

/-- The columns that the SELECTs of a statement use. -/
def selectedColumns (s : Statement) : List ColumnRef :=
  s.tree.walk.filterMap (selectedColumn? s.tree)

theorem alterColumns_operand {s : Statement} {kind : AlterKind} {c : ColumnRef}
    (h : c ∈ s.alterColumns kind) :
    ∃ i ∈ s.tree.walk, s.tree.kind? i = some kind.operand ∧ s.tree.value? i = some c.name := by
  obtain ⟨i, hi, hc⟩ := List.mem_filterMap.1 h
  refine ⟨i, hi, ?_⟩
  split at hc
  · rename_i hk
    obtain ⟨v, hv, rfl⟩ := Option.map_eq_some_iff.1 hc
    exact ⟨hk.1, hv⟩
  · cases hc

end Statement

end DdlOrder
