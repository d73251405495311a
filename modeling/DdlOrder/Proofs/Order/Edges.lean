import DdlOrder.Proofs.Graph.Mirror
import DdlOrder.Proofs.Graph.OfStatements
import DdlOrder.Proofs.Order.Columns

/-!
# Which statements depend on which

What one statement creates, declares or uses can be what another one reads, alters, renames or
drops. `Statement.Precedes` says so of two statements, without the rules by which this is found.
The graph of a batch has an edge exactly from one statement to a different one that it precedes,
and has it once, however many of the reasons hold (`edges_iff_precedes`).

* `Statement.precedes_iff`: some rule holds between two statements exactly if the one precedes
  the other.
-/

namespace DdlOrder

/-! ## What one statement needs of another -/

/-- Statement `a` is to run before statement `b`. -/
inductive Statement.Precedes (m : Matching) (a b : Statement) : Prop where
  /-- Statement `a` creates a table that `b` refers to or alters. -/
  | table {name : String} (hcreated : name ∈ a.createdTables)
      (hneeded : name ∈ b.referencedTables ∨ name ∈ b.alterTargets)
  /-- Statement `a` creates a function that `b` calls. -/
  | function {name : String} (hcreated : name ∈ a.createdFunctions)
      (hneeded : name ∈ b.functionCalls)
  /-- Statement `a` creates, adds or renames something to a column that `b` selects, modifies,
  comments, materializes or renames. -/
  | column {c d : ColumnRef}
      (hcreated : c ∈ a.createdColumns ∨ c ∈ a.alterColumns .addColumn ∨ c ∈ a.renamedTo)
      (hneeded : d ∈ b.selectedColumns ∨ d ∈ b.alterColumns .modifyColumn ∨
        d ∈ b.alterColumns .commentColumn ∨ d ∈ b.alterColumns .materializeColumn ∨
        d ∈ b.renamedFrom)
      (hsame : c.Compatible m d)
  /-- Statement `a` creates or adds a column that `b` renames something to. -/
  | renameTarget {c d : ColumnRef}
      (hcreated : c ∈ a.createdColumns ∨ c ∈ a.alterColumns .addColumn)
      (hneeded : d ∈ b.renamedTo) (hsame : c.Compatible m d)
  /-- Statement `a` makes any use of a column that `b` drops. -/
  | droppedColumn {c d : ColumnRef}
      (hused : c ∈ a.selectedColumns ∨ c ∈ a.alterColumns .addColumn ∨
        c ∈ a.alterColumns .modifyColumn ∨ c ∈ a.alterColumns .commentColumn ∨
        c ∈ a.alterColumns .materializeColumn ∨ c ∈ a.renamedFrom ∨ c ∈ a.renamedTo)
      (hdropped : d ∈ b.alterColumns .dropColumn) (hsame : c.Compatible m d)

variable {m : Matching}

theorem Statement.precedes_iff {a b : Statement} :
    a.Precedes m b ↔
      ∃ r, Rule.holds m (Facts.ofStatement a) (Facts.ofStatement b) r = true := by
  constructor
  · intro h
    cases h with
    | table hcreated hneeded =>
      exact ⟨.createsTable, Rule.holds_createsTable.2 ⟨_, hcreated, hneeded⟩⟩
    | function hcreated hneeded =>
      exact ⟨.createsFunction, Rule.holds_createsFunction.2 ⟨_, hcreated, hneeded⟩⟩
    | column hcreated hneeded hsame =>
      refine ⟨.introducesColumn, Rule.holds_introducesColumn.2 ⟨_, ?_, _, ?_,
        ColumnRef.mayBeSame_iff.2 hsame⟩⟩
      · simpa [Facts.ofStatement] using hcreated
      · simpa [Facts.ofStatement] using hneeded
    | renameTarget hcreated hneeded hsame =>
      refine ⟨.declaresRenameTarget, Rule.holds_declaresRenameTarget.2 ⟨_, ?_, _, hneeded,
        ColumnRef.mayBeSame_iff.2 hsame⟩⟩
      simpa [Facts.ofStatement] using hcreated
    | droppedColumn hused hdropped hsame =>
      refine ⟨.usesDroppedColumn, Rule.holds_usesDroppedColumn.2 ⟨_, ?_, _, hdropped,
        ColumnRef.mayBeSame_iff.2 hsame⟩⟩
      simpa [Facts.ofStatement] using hused
  · rintro ⟨r, h⟩
    cases r with
    | createsTable =>
      obtain ⟨name, hcreated, hneeded⟩ := Rule.holds_createsTable.1 h
      exact .table hcreated hneeded
    | createsFunction =>
      obtain ⟨name, hcreated, hneeded⟩ := Rule.holds_createsFunction.1 h
      exact .function hcreated hneeded
    | introducesColumn =>
      obtain ⟨c, hc, d, hd, hsame⟩ := Rule.holds_introducesColumn.1 h
      refine .column (c := c) (d := d) ?_ ?_ (ColumnRef.mayBeSame_iff.1 hsame)
      · simpa [Facts.ofStatement] using hc
      · simpa [Facts.ofStatement] using hd
    | declaresRenameTarget =>
      obtain ⟨c, hc, d, hd, hsame⟩ := Rule.holds_declaresRenameTarget.1 h
      refine .renameTarget (c := c) (d := d) ?_ hd (ColumnRef.mayBeSame_iff.1 hsame)
      simpa [Facts.ofStatement] using hc
    | usesDroppedColumn =>
      obtain ⟨c, hc, d, hd, hsame⟩ := Rule.holds_usesDroppedColumn.1 h
      refine .droppedColumn (c := c) (d := d) ?_ hd (ColumnRef.mayBeSame_iff.1 hsame)
      simpa [Facts.ofStatement] using hc

/-! ## The edges of a batch -/

/-- The graph of a batch has an edge from one position to another exactly if the positions are
different and the statement at the one is to run before that at the other. So no statement
depends on itself, and each dependency is one edge, whatever the number of its reasons. -/
theorem edges_iff_precedes (m : Matching) (statements : List Statement) :
    let g := Graph.ofStatements m statements
    (∀ i j : Nat, g.hasEdge i j = true ↔
        i ≠ j ∧ ∃ a b, statements[i]? = some a ∧ statements[j]? = some b ∧ a.Precedes m b) ∧
      (∀ i : Nat, g.hasEdge i i = false) ∧
      (∀ i j : Fin statements.length, (i, j) ∈ g.edges ↔ g.hasEdge i j = true) ∧
      g.edges.Nodup := by
  intro g
  have hedge : ∀ i j : Nat, g.hasEdge i j = true ↔
      i ≠ j ∧ ∃ a b, statements[i]? = some a ∧ statements[j]? = some b ∧ a.Precedes m b := by
    intro i j
    rw [Graph.hasEdge_eq_true_iff]
    constructor
    · rintro ⟨hi, hj, h⟩
      obtain ⟨hne, hrule⟩ := Graph.edge_ofStatements.1 h
      exact ⟨fun e => hne (Fin.ext e), _, _, List.getElem?_eq_getElem hi,
        List.getElem?_eq_getElem hj, Statement.precedes_iff.2 hrule⟩
    · rintro ⟨hne, a, b, ha, hb, hab⟩
      obtain ⟨hi, rfl⟩ := List.getElem?_eq_some_iff.1 ha
      obtain ⟨hj, rfl⟩ := List.getElem?_eq_some_iff.1 hb
      exact ⟨hi, hj, Graph.edge_ofStatements.2
        ⟨fun e => hne (Fin.val_eq_of_eq e), Statement.precedes_iff.1 hab⟩⟩
  refine ⟨hedge, fun i => ?_, fun i j => ?_, (Graph.mirrored_ofStatements m statements).nodup_edges⟩
  · exact Bool.eq_false_iff.2 fun h => ((hedge i i).1 h).1 rfl
  · rw [Graph.mem_edges_iff, Graph.hasEdge_iff]

end DdlOrder
