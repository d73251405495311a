import DdlOrder.Proofs.Order.Dependencies
import DdlOrder.Proofs.Rule
import DdlOrder.Proofs.Statement.Names

/-!
# The life of a column

An order of a batch introduces a column before it is used, declares the target of a
rename before the rename, and drops a column only after its uses
(`column_life_cycle`). Where a column is declared in a table and dropped from the same
one, the declaration comes first: it is the table that makes the drop wait.
-/

namespace DdlOrder

/-- The columns may be one and the same: they have one name and, where tables are
compared, their tables are not both known and different. -/
def ColumnRef.Compatible (m : Matching) (a b : ColumnRef) : Prop :=
  a.name = b.name ∧
    ¬ (m = .qualified ∧ ∃ s t, a.table = some s ∧ b.table = some t ∧ s ≠ t)

theorem ColumnRef.mayBeSame_iff {m : Matching} {a b : ColumnRef} :
    a.mayBeSame m b = true ↔ a.Compatible m b := by
  obtain ⟨s, x⟩ := a
  obtain ⟨t, y⟩ := b
  cases m with
  | name => simp [mayBeSame, Compatible]
  | qualified => cases s <;> cases t <;> simp [mayBeSame, Compatible]

/-- Of two different statements, the one that introduces, declares or uses a column
stands before the one that uses it, renames something to it or drops it. -/
theorem column_life_cycle {m : Matching} {statements ordered : List Statement}
    (hparsed : ∀ s ∈ statements, s.IsParsed) (hordered : orderStatements m statements = .ok ordered)
    {i j : Fin statements.length} (hij : i ≠ j) :
    let a := statements.get i
    let b := statements.get j
    ∃ order, Arranged m statements ordered order ∧
      (∀ c ∈ a.createdColumns ++ a.alterColumns .addColumn ++ a.renamedTo,
        ∀ d ∈ b.selectedColumns ++ b.alterColumns .modifyColumn ++
          b.alterColumns .commentColumn ++ b.alterColumns .materializeColumn ++ b.renamedFrom,
        c.Compatible m d → order.idxOf i < order.idxOf j) ∧
      (∀ c ∈ a.createdColumns ++ a.alterColumns .addColumn, ∀ d ∈ b.renamedTo,
        c.Compatible m d → order.idxOf i < order.idxOf j) ∧
      (∀ c ∈ a.selectedColumns ++ a.alterColumns .addColumn ++ a.alterColumns .modifyColumn ++
          a.alterColumns .commentColumn ++ a.alterColumns .materializeColumn ++ a.renamedFrom ++
          a.renamedTo,
        ∀ d ∈ b.alterColumns .dropColumn,
        c.Compatible m d → order.idxOf i < order.idxOf j) ∧
      ∀ table name, { table := some table, name } ∈ a.createdColumns →
        { table := some table, name } ∈ b.alterColumns .dropColumn →
        order.idxOf i < order.idxOf j := by
  intro a b
  obtain ⟨order, harranged⟩ := exists_arranged hordered
  refine ⟨order, harranged, ?uses, ?renames, ?drops, ?dropsCreated⟩
  case uses =>
    intro c hc d hd hcd
    refine harranged.idxOf_lt_of_holds hij .introducesColumn ?_
    exact Rule.holds_introducesColumn.2 ⟨c, hc, d, hd, ColumnRef.mayBeSame_iff.2 hcd⟩
  case renames =>
    intro c hc d hd hcd
    refine harranged.idxOf_lt_of_holds hij .declaresRenameTarget ?_
    exact Rule.holds_declaresRenameTarget.2 ⟨c, hc, d, hd, ColumnRef.mayBeSame_iff.2 hcd⟩
  case drops =>
    intro c hc d hd hcd
    refine harranged.idxOf_lt_of_holds hij .usesDroppedColumn ?_
    exact Rule.holds_usesDroppedColumn.2 ⟨c, hc, d, hd, ColumnRef.mayBeSame_iff.2 hcd⟩
  case dropsCreated =>
    -- No rule relates created to dropped columns: here it is the table that the one
    -- creates and the other alters.
    intro table name hcreated hdropped
    have htable := Statement.mem_createdTables_of_createdColumns
      (hparsed a (List.getElem_mem _)) hcreated
    have htarget := Statement.mem_alterTargets_of_alterColumns
      (hparsed b (List.getElem_mem _)) hdropped
    refine harranged.idxOf_lt_of_holds hij .createsTable ?_
    exact Rule.holds_createsTable.2 ⟨table, htable, .inr htarget⟩

/-- Dropping a column waits for the table that is created with it, also where columns are
compared by table. -/
theorem column_life_cycle_created_dropped :
    let createLines := ["CreateQuery  t (children 2)", " Identifier t",
      " Columns definition (children 1)", "  ExpressionList (children 1)",
      "   ColumnDeclaration c (children 1)", "    DataType UInt8"]
    let dropLines := ["AlterQuery  t (children 2)", " ExpressionList (children 1)",
      "  AlterCommand DROP_COLUMN (children 1)", "   Identifier c", " Identifier t"]
    ∃ create drop ordered,
      Statement.ofDump "create table t (c UInt8)" createLines = .ok create ∧
      Statement.ofDump "alter table t drop column c" dropLines = .ok drop ∧
      orderStatements .qualified [drop, create] = .ok ordered ∧
      { table := some "t", name := "c" } ∈ create.createdColumns ∧
      { table := some "t", name := "c" } ∈ drop.alterColumns .dropColumn ∧
      ∃ order : List (Fin 2), Arranged .qualified [drop, create] ordered order ∧
        order.idxOf 1 < order.idxOf 0 := by
  intro createLines dropLines
  let column : ColumnRef := { table := some "t", name := "c" }
  have hrun : (match Statement.ofDump "create table t (c UInt8)" createLines,
        Statement.ofDump "alter table t drop column c" dropLines with
      | .ok create, .ok drop =>
        (orderStatements .qualified [drop, create]).isOk &&
          decide (column ∈ create.createdColumns) &&
          decide (column ∈ drop.alterColumns .dropColumn)
      | _, _ => false) = true := by decide +kernel
  split at hrun
  case h_2 => cases hrun
  rename_i create drop hcreate hdrop
  simp only [Bool.and_eq_true, decide_eq_true_eq] at hrun
  obtain ⟨⟨horder, hcreated⟩, hdropped⟩ := hrun
  obtain ⟨ordered, hordered⟩ := exists_eq_ok_of_isOk horder
  have hparsed : ∀ s ∈ [drop, create], s.IsParsed := by
    simp only [List.mem_cons, List.not_mem_nil, or_false]
    rintro s (rfl | rfl)
    · exact ⟨_, _, hdrop⟩
    · exact ⟨_, _, hcreate⟩
  have hne : (1 : Fin 2) ≠ 0 := by decide
  obtain ⟨order, harranged, -, -, -, hlast⟩ := column_life_cycle hparsed hordered hne
  exact ⟨create, drop, ordered, hcreate, hdrop, hordered, hcreated, hdropped, order, harranged,
    hlast "t" "c" hcreated hdropped⟩

end DdlOrder
