/-!
# Nodes of a dump

A dump line describes one node of a statement's syntax tree: its kind, an
optional value with an optional qualifier, and an optional note in
parentheses, which may name an alias.

* `Kind.tag_ofTag`: a kind keeps the tag it was read from;
* `Kind.ofTag_injective`: different tags are different kinds.
-/

namespace DdlOrder

/-- The node kinds that dependencies are drawn from; every other type tag is
carried along as it is. -/
inductive Kind where
  | createQuery
  | createFunctionQuery
  | alterQuery
  | alterCommand
  | tableIdentifier
  | identifier
  | columnDeclaration
  | columns
  | expressionList
  | function
  | selectQuery
  | materializedViewToTable
  | other (tag : String)
  deriving DecidableEq, Repr

/-- The kind that a type tag names. -/
def Kind.ofTag (tag : String) : Kind :=
  match tag with
  | "CreateQuery" => .createQuery
  | "CreateFunctionQuery" => .createFunctionQuery
  | "AlterQuery" => .alterQuery
  | "AlterCommand" => .alterCommand
  | "TableIdentifier" => .tableIdentifier
  | "Identifier" => .identifier
  | "ColumnDeclaration" => .columnDeclaration
  | "Columns" => .columns
  | "ExpressionList" => .expressionList
  | "Function" => .function
  | "SelectQuery" => .selectQuery
  | "MaterializedViewToTable" => .materializedViewToTable
  | tag => .other tag

/-- The type tag of a kind. -/
def Kind.tag : Kind → String
  | .createQuery => "CreateQuery"
  | .createFunctionQuery => "CreateFunctionQuery"
  | .alterQuery => "AlterQuery"
  | .alterCommand => "AlterCommand"
  | .tableIdentifier => "TableIdentifier"
  | .identifier => "Identifier"
  | .columnDeclaration => "ColumnDeclaration"
  | .columns => "Columns"
  | .expressionList => "ExpressionList"
  | .function => "Function"
  | .selectQuery => "SelectQuery"
  | .materializedViewToTable => "MaterializedViewToTable"
  | .other tag => tag

/-- Whether dependencies look at nodes of this kind. -/
def Kind.isKnown : Kind → Bool
  | .other _ => false
  | _ => true

theorem Kind.tag_ofTag (tag : String) : (Kind.ofTag tag).tag = tag := by
  unfold Kind.ofTag
  split <;> rfl

theorem Kind.ofTag_injective {s t : String} (h : Kind.ofTag s = Kind.ofTag t) : s = t := by
  rw [← Kind.tag_ofTag s, ← Kind.tag_ofTag t, h]

/-- The column operations of an ALTER statement. Clearing a column is dumped as
a drop, so it counts as one. -/
inductive AlterKind where
  | addColumn
  | dropColumn
  | modifyColumn
  | commentColumn
  | materializeColumn
  | renameColumn
  deriving DecidableEq, Repr

/-- The column operation that the value of an `AlterCommand` node names. -/
def AlterKind.ofCommand? (command : String) : Option AlterKind :=
  match command with
  | "ADD_COLUMN" => some .addColumn
  | "DROP_COLUMN" => some .dropColumn
  | "MODIFY_COLUMN" => some .modifyColumn
  | "COMMENT_COLUMN" => some .commentColumn
  | "MATERIALIZE_COLUMN" => some .materializeColumn
  | "RENAME_COLUMN" => some .renameColumn
  | _ => none

/-- The kind of the node under the command that names the column. -/
def AlterKind.operand : AlterKind → Kind
  | .addColumn | .modifyColumn => .columnDeclaration
  | .dropColumn | .commentColumn | .materializeColumn | .renameColumn => .identifier

/-- One node of a dump. -/
structure Node where
  kind : Kind
  value : Option String := none
  /-- The database or table named before the value. -/
  qualifier : Option String := none
  aliasName : Option String := none
  /-- The note, with its parentheses. -/
  note : Option String := none
  /-- How many levels below the left margin the node stands. -/
  indent : Nat
  /-- The line the node was read from, empty for a node that no line describes. -/
  raw : String := ""
  deriving DecidableEq, Repr

end DdlOrder
