import DdlOrder.Proofs.Graph.TieBreak
import DdlOrder.Proofs.Order.Selection

/-!
# Ordering again what is in order

Not every order that follows the dependencies is left as it is: with statements of which the
first comes before the second and the third is on its own, the third is placed before the
second. But an order that was found is left so. For its places are the turns of the
statements (`Graph.FirstReadyFirst`), and if the positions are renumbered by these places,
every statement has its turn where it stands (`Graph.FirstReadyFirst.renumbered`). No other
order gives each its turn, so ordering again finds the same one (`orderStatements_twice`).
-/

namespace DdlOrder

namespace Graph

variable {n k : Nat} {g : Graph n} {g' : Graph k} {order : List (Fin n)} {f : Fin k → Fin n}

/-- If every position is renumbered by its place, it is released where it was. -/
theorem release_finRange (hg : g.Mirrored) (hg' : g'.Mirrored) (hf : Function.Surjective f)
    (hplace : ∀ i, order.idxOf (f i) = i) (hedge : ∀ i j, g'.Edge i j ↔ g.Edge (f i) (f j))
    (x : Fin k) : g'.release (List.finRange k) x = g.release order (f x) := by
  refine eq_of_forall_ge_iff fun bound => ?_
  rw [release_le_iff, release_le_iff, hf.forall]
  simp only [hg.mem_parents, hg'.mem_parents, hedge, hplace, List.idxOf_finRange]

/-- If every position is renumbered by its place, all stand in their turn as they are. -/
theorem FirstReadyFirst.renumbered (h : g.FirstReadyFirst order) (hg : g.Mirrored)
    (hg' : g'.Mirrored) (hf : Function.Surjective f) (hplace : ∀ i, order.idxOf (f i) = i)
    (hedge : ∀ i j, g'.Edge i j ↔ g.Edge (f i) (f j)) :
    g'.FirstReadyFirst (List.finRange k) where
  perm := .refl _
  idxOf_lt_iff x y := by
    have hturns : (List.finRange k).Pairwise fun x y =>
        g'.turn (List.finRange k) x < g'.turn (List.finRange k) y := by
      refine (List.pairwise_lt_finRange k).imp fun {x y} hxy => ?_
      have hfxy : order.idxOf (f x) < order.idxOf (f y) := by
        rw [hplace, hplace]
        exact hxy
      have hle := release_le_of_turn_lt ((h.idxOf_lt_iff (f x) (f y)).1 hfxy)
      rw [← release_finRange hg hg' hf hplace hedge, ← release_finRange hg hg' hf hplace hedge]
        at hle
      exact Prod.Lex.toLex_lt_toLex'.2 ⟨hle, fun _ => hxy⟩
    exact idxOf_lt_iff_of_pairwise hturns (List.mem_finRange x) (List.mem_finRange y)

end Graph

variable {m : Matching} {statements ordered : List Statement}

namespace Arranged

variable {order : List (Fin statements.length)}

theorem idxOf_origin (h : Arranged m statements ordered order)
    (i : Fin (order.map statements.get).length) : order.idxOf (origin order i) = i :=
  h.nodup.idxOf_getElem i (by simpa using i.isLt)

/-- Of statements that were put in order, each has its place where it stands. -/
theorem orderPositions_eq (h : Arranged m statements ordered order) :
    orderPositions m (order.map statements.get) = .ok (List.finRange _) := by
  have hg := Graph.mirrored_ofStatements m statements
  have hg' := Graph.mirrored_ofStatements m (order.map statements.get)
  obtain ⟨hacyclic, hplaced⟩ := orderPositions_eq_ok_iff.1 h.positions
  have hacyclic' : ¬ Cyclic (Graph.ofStatements m (order.map statements.get)).Edge :=
    fun hcyclic => hacyclic (Graph.cyclic_of_selection h.nodup hcyclic)
  have hfirst : (Graph.ofStatements m statements).FirstReadyFirst order :=
    hplaced ▸ Graph.firstReadyFirst_placed hg hacyclic
  have hrenumbered : (Graph.ofStatements m (order.map statements.get)).FirstReadyFirst
      (List.finRange _) :=
    hfirst.renumbered hg hg' (origin_surjective h.mem) h.idxOf_origin
      fun i j => Graph.edge_ofStatements_selection h.nodup
  refine orderPositions_eq_ok_iff.2 ⟨hacyclic', ?_⟩
  exact (Graph.firstReadyFirst_placed hg' hacyclic').unique hrenumbered hg' hacyclic'

end Arranged

/-- Ordering what was put in order leaves every statement in its place. -/
theorem orderStatements_twice (h : orderStatements m statements = .ok ordered) :
    orderStatements m ordered = .ok ordered := by
  obtain ⟨order, harranged⟩ := exists_arranged h
  rw [harranged.ordered_eq, orderStatements, harranged.orderPositions_eq]
  refine congrArg Except.ok ?_
  rw [arrange_of_nodup (List.nodup_finRange _), List.map_get_finRange]

/-- The statement that waits for the first one goes behind the one that waits for nothing, and
stays there. -/
theorem orderStatements_twice_three :
    let create : Statement :=
      { query := "CREATE TABLE t"
        tree := .singleton { kind := .createQuery, value := some "t", indent := 0 } }
    let read : Statement :=
      { query := "SELECT 1 FROM t"
        tree := .singleton { kind := .tableIdentifier, value := some "t", indent := 0 } }
    let other : Statement :=
      { query := "SELECT 2", tree := .singleton { kind := .selectQuery, indent := 0 } }
    ∃ ordered, orderStatements .qualified [create, read, other] = .ok ordered ∧
      ordered.map (·.query) = ["CREATE TABLE t", "SELECT 2", "SELECT 1 FROM t"] ∧
      orderStatements .qualified ordered = .ok ordered := by
  intro create read other
  have hrun : (match orderStatements .qualified [create, read, other] with
      | .ok ordered =>
        ordered.map (·.query) == ["CREATE TABLE t", "SELECT 2", "SELECT 1 FROM t"]
      | .error _ => false) = true := by decide +kernel
  split at hrun
  · rename_i ordered h
    exact ⟨ordered, h, eq_of_beq hrun, orderStatements_twice h⟩
  · cases hrun

end DdlOrder
