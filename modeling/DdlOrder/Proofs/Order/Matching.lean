import DdlOrder.Proofs.Order.Cycles
import DdlOrder.Proofs.Rule

/-!
# Comparing columns by table as well

Where columns are compared by their tables as well, fewer of them may be the same, so no
edge is there that comparing by name alone does not give (`Graph.edge_ofStatements_name`).
What has an order by names therefore has one by tables, and the order by names is
right for the tables, too (`ordered_by_name_respects_qualified`).
-/

namespace DdlOrder

variable {m : Matching} {statements : List Statement}

theorem Graph.edge_ofStatements_name {i j : Fin statements.length}
    (h : (ofStatements m statements).Edge i j) : (ofStatements .name statements).Edge i j := by
  obtain ⟨hne, r, hr⟩ := edge_ofStatements.1 h
  exact edge_ofStatements.2 ⟨hne, r, Rule.holds_name hr⟩

/-- Whatever has an order by names has one in any other way of comparing. -/
theorem exists_ordered_of_name
    (h : ∃ ordered, orderStatements .name statements = .ok ordered) :
    ∃ ordered, orderStatements m statements = .ok ordered := by
  rw [exists_ordered_iff] at h ⊢
  exact fun hcyclic => h (hcyclic.lift id fun _ _ => Graph.edge_ofStatements_name)

/-- Comparing by table gives no edge that comparing by name does not. What has an order by
names has one by tables, and the order by names respects all edges by tables. -/
theorem ordered_by_name_respects_qualified (statements : List Statement) :
    (∀ i j, (i, j) ∈ (Graph.ofStatements .qualified statements).edges →
        (i, j) ∈ (Graph.ofStatements .name statements).edges) ∧
      ∀ ordered, orderStatements .name statements = .ok ordered →
        (∃ other, orderStatements .qualified statements = .ok other) ∧
        ∃ order, Arranged .name statements ordered order ∧
          ∀ i j, (i, j) ∈ (Graph.ofStatements .qualified statements).edges →
            order.idxOf i < order.idxOf j := by
  refine ⟨fun i j hij => ?_, fun ordered hordered => ?_⟩
  · rw [Graph.mem_edges_iff] at hij ⊢
    exact Graph.edge_ofStatements_name hij
  · obtain ⟨order, harranged⟩ := exists_arranged hordered
    refine ⟨exists_ordered_of_name ⟨ordered, hordered⟩, order, harranged, fun i j hij => ?_⟩
    exact harranged.idxOf_lt (Graph.edge_ofStatements_name (Graph.mem_edges_iff.1 hij))

/-- Dropping `b.id` waits for `b.id` to be read and, by name alone, for `a.id` as well. -/
theorem ordered_by_name_respects_qualified_drop :
    let id : Node := { kind := .identifier, value := some "id", indent := 2 }
    let read (table : String) : Statement :=
      { query := "SELECT id FROM " ++ table
        tree := (((Tree.singleton { kind := .selectQuery, indent := 0 }).addChild 0 (by decide)
          { kind := .expressionList, indent := 1 }).addChild 1 (by decide) id).addChild 0 (by decide)
          { kind := .tableIdentifier, value := some table, indent := 1 } }
    let drop : Statement :=
      { query := "ALTER TABLE b DROP COLUMN id"
        tree := ((Tree.singleton { kind := .alterQuery, value := some "b", indent := 0 }).addChild 0
          (by decide) { kind := .alterCommand, value := some "DROP_COLUMN", indent := 1 }).addChild 1
          (by decide) id }
    let batch := [drop, read "a", read "b"]
    (Graph.ofStatements .name batch).hasEdge 1 0 = true ∧
      (Graph.ofStatements .qualified batch).hasEdge 1 0 = false ∧
      ∃ ordered other, orderStatements .name batch = .ok ordered ∧
        orderStatements .qualified batch = .ok other ∧
        ∃ order : List (Fin 3), Arranged .name batch ordered order ∧
          order.idxOf 2 < order.idxOf 0 := by
  intro id read drop batch
  have hok : (orderStatements .name batch).isOk = true := by decide +kernel
  have hedge : (Graph.ofStatements .qualified batch).hasEdge 2 0 = true := by decide +kernel
  obtain ⟨ordered, hordered⟩ := exists_eq_ok_of_isOk hok
  obtain ⟨-, horders⟩ := ordered_by_name_respects_qualified batch
  obtain ⟨⟨other, hother⟩, order, harranged, hlt⟩ := horders ordered hordered
  have hmem : ((2 : Fin 3), (0 : Fin 3)) ∈ (Graph.ofStatements .qualified batch).edges :=
    Graph.mem_edges_iff.2 (Graph.hasEdge_iff.1 hedge)
  exact ⟨by decide +kernel, by decide +kernel, ordered, other, hordered, hother, order, harranged,
    hlt 2 0 hmem⟩

end DdlOrder
