import DdlOrder.Order
import DdlOrder.Proofs.Graph.Cycle
import DdlOrder.Proofs.Graph.OfStatements
import DdlOrder.Proofs.Result

/-!
# Orders follow the dependencies

An order of a batch lists every statement once, as it was given, and each after the
statements that it depends on.

* `exists_arranged`: behind a result of ordering stands an arrangement of the positions;
* `Arranged.idxOf_lt`: in it, an edge leads from an earlier to a later place;
* `orderStatements_respects_edges`: the same of the result itself.
-/

namespace DdlOrder

/-- `order` lists the positions of `statements` as they follow each other in `ordered`,
the result of ordering. -/
structure Arranged (m : Matching) (statements ordered : List Statement)
    (order : List (Fin statements.length)) : Prop where
  positions : orderPositions m statements = .ok order
  perm : order.Perm (List.finRange statements.length)
  ordered_eq : ordered = order.map statements.get

variable {m : Matching} {statements ordered : List Statement}

theorem orderPositions_eq_ok_iff {order : List (Fin statements.length)} :
    orderPositions m statements = .ok order ↔
      ¬ Cyclic (Graph.ofStatements m statements).Edge ∧
        order = (Graph.ofStatements m statements).placed :=
  Graph.sort_eq_ok_iff (Graph.mirrored_ofStatements m statements)

theorem exists_arranged (h : orderStatements m statements = .ok ordered) :
    ∃ order, Arranged m statements ordered order := by
  have hg := Graph.mirrored_ofStatements m statements
  obtain ⟨order, hpositions, rfl⟩ := map_eq_ok_iff.1 h
  obtain ⟨hacyclic, rfl⟩ := orderPositions_eq_ok_iff.1 hpositions
  exact ⟨_, hpositions, Graph.perm_placed hg hacyclic, arrange_of_nodup hg.nodup_placed⟩

namespace Arranged

variable {order : List (Fin statements.length)}

theorem mem (h : Arranged m statements ordered order) (i : Fin statements.length) : i ∈ order :=
  h.perm.mem_iff.2 (List.mem_finRange i)

theorem nodup (h : Arranged m statements ordered order) : order.Nodup :=
  h.perm.nodup_iff.2 (List.nodup_finRange _)

theorem perm_statements (h : Arranged m statements ordered order) : ordered.Perm statements := by
  rw [h.ordered_eq]
  have := h.perm.map statements.get
  rwa [List.map_get_finRange] at this

/-- A statement stands before those that depend on it. -/
theorem idxOf_lt (h : Arranged m statements ordered order) {i j : Fin statements.length}
    (hij : (Graph.ofStatements m statements).Edge i j) : order.idxOf i < order.idxOf j := by
  have hmem := h.mem j
  obtain ⟨-, rfl⟩ := orderPositions_eq_ok_iff.1 h.positions
  exact (Graph.mirrored_ofStatements m statements).idxOf_placed_lt hij hmem

theorem idxOf_lt_of_holds (h : Arranged m statements ordered order)
    {i j : Fin statements.length} (hne : i ≠ j) (r : Rule)
    (hr : Rule.holds m (Facts.ofStatement (statements.get i))
      (Facts.ofStatement (statements.get j)) r) : order.idxOf i < order.idxOf j :=
  h.idxOf_lt (Graph.edge_ofStatements.2 ⟨hne, r, hr⟩)

end Arranged

/-- What ordering gives is a rearrangement of the statements by their positions, in which
every edge of their graph leads forward. -/
theorem orderStatements_respects_edges (h : orderStatements m statements = .ok ordered) :
    ordered.Perm statements ∧
      ∃ order : List (Fin statements.length),
        orderPositions m statements = .ok order ∧
        order.Perm (List.finRange statements.length) ∧ ordered = order.map statements.get ∧
        ∀ i j, (i, j) ∈ (Graph.ofStatements m statements).edges →
          order.idxOf i < order.idxOf j := by
  obtain ⟨order, harranged⟩ := exists_arranged h
  refine ⟨harranged.perm_statements, order, harranged.positions, harranged.perm,
    harranged.ordered_eq, fun i j hij => ?_⟩
  exact harranged.idxOf_lt (Graph.mem_edges_iff.1 hij)

/-- A table that two equal statements read is created before both of them. -/
theorem orderStatements_table_first :
    let create : Statement :=
      { query := "CREATE TABLE t"
        tree := .singleton { kind := .createQuery, value := some "t", indent := 0 } }
    let read : Statement :=
      { query := "SELECT 1 FROM t"
        tree := .singleton { kind := .tableIdentifier, value := some "t", indent := 0 } }
    ∃ ordered, orderStatements .name [read, create, read] = .ok ordered ∧
      ordered.map (·.query) = ["CREATE TABLE t", "SELECT 1 FROM t", "SELECT 1 FROM t"] ∧
      ordered.Perm [read, create, read] ∧
      ∃ order : List (Fin 3),
        orderPositions .name [read, create, read] = .ok order ∧
        order.Perm (List.finRange 3) ∧ ordered = order.map [read, create, read].get ∧
        ∀ i j, (i, j) ∈ (Graph.ofStatements .name [read, create, read]).edges →
          order.idxOf i < order.idxOf j := by
  intro create read
  have hrun : (match orderStatements .name [read, create, read] with
      | .ok ordered =>
        ordered.map (·.query) == ["CREATE TABLE t", "SELECT 1 FROM t", "SELECT 1 FROM t"]
      | .error _ => false) = true := by decide +kernel
  split at hrun
  · rename_i ordered h
    exact ⟨ordered, h, eq_of_beq hrun, orderStatements_respects_edges h⟩
  · cases hrun

end DdlOrder
